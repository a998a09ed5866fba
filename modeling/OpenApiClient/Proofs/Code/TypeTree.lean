import OpenApiClient.Proofs.Code.TypeToken

/-!
# Reading type expressions

The grammar of type expressions as a parser of tokens. A type has one or more operands between bars;
an operand is followed by pairs of brackets, which bind tighter than the bars; and an operand is a
type in parentheses, an object, a name with arguments or a word. The parser calls itself at most
three times for each token, which bounds its fuel.

`Operand` and `Whole` say what tokens are read as, in front of any others that do not go on with the
type, and there is one lemma for each way to put tokens together.
-/

namespace OpenApiClient

namespace Code

/-- What a type expression says. -/
inductive TypeTree where
  | atom (a : Atom)
  | apply (name : String) (arguments : List TypeTree)
  | array (item : TypeTree)
  | union (alternatives : List TypeTree)
  /-- The members with their keys and whether they are optional. -/
  | object (members : List (String × Bool × TypeTree))
  deriving Repr, Inhabited

namespace TypeTree

def alternatives (first : TypeTree) : List TypeTree → TypeTree
  | [] => first
  | others => union (first :: others)

def brackets (t : TypeTree) : List Token → TypeTree × List Token
  | .mark '[' :: .mark ']' :: rest => brackets (array t) rest
  | rest => (t, rest)

end TypeTree

/-- The key of a member that a word stands for. -/
def Atom.key? : Atom → Option String
  | name text => some text
  | string value => some value
  | number _ => none

/-- The key of a member, whether it is optional, and the rest from its type on. -/
def memberKey? : List Token → Option ((String × Bool) × List Token)
  | .atom a :: .mark '?' :: .mark ':' :: rest => a.key?.map fun name => ((name, true), rest)
  | .atom a :: .mark ':' :: rest => a.key?.map fun name => ((name, false), rest)
  | _ => none

mutual

def type? : Nat → List Token → Option (TypeTree × List Token)
  | 0, _ => none
  | fuel + 1, ts => do
    let (first, rest) ← operand? fuel ts
    let (others, rest) ← alternatives? fuel rest
    return (first.alternatives others, rest)

/-- The operands that follow one, each behind a bar. -/
def alternatives? : Nat → List Token → Option (List TypeTree × List Token)
  | 0, _ => none
  | fuel + 1, .mark '|' :: ts => do
    let (first, rest) ← operand? fuel ts
    let (others, rest) ← alternatives? fuel rest
    return (first :: others, rest)
  | _ + 1, ts => some ([], ts)

def operand? : Nat → List Token → Option (TypeTree × List Token)
  | 0, _ => none
  | fuel + 1, ts => do
    let (t, rest) ← primary? fuel ts
    return t.brackets rest

/-- An operand without brackets. -/
def primary? : Nat → List Token → Option (TypeTree × List Token)
  | 0, _ => none
  | fuel + 1, .mark '(' :: ts => do
    let (t, rest) ← type? fuel ts
    match rest with
    | .mark ')' :: rest => some (t, rest)
    | _ => none
  | fuel + 1, .mark '\x7b' :: ts => do
    let (members, rest) ← members? fuel ts
    return (.object members, rest)
  | fuel + 1, .atom (.name name) :: .mark '<' :: ts => do
    let (arguments, rest) ← arguments? fuel ts
    return (.apply name arguments, rest)
  | _ + 1, .atom a :: ts => some (.atom a, ts)
  | _ + 1, _ => none

/-- The arguments of a name, up to the bracket that closes them. -/
def arguments? : Nat → List Token → Option (List TypeTree × List Token)
  | 0, _ => none
  | fuel + 1, ts => do
    let (first, rest) ← type? fuel ts
    match rest with
    | .mark '>' :: rest => some ([first], rest)
    | .mark ',' :: rest => do
      let (others, rest) ← arguments? fuel rest
      return (first :: others, rest)
    | _ => none

/-- The members of an object, up to the brace that closes it. -/
def members? : Nat → List Token → Option (List (String × Bool × TypeTree) × List Token)
  | 0, _ => none
  | _ + 1, .mark '\x7d' :: ts => some ([], ts)
  | fuel + 1, ts => do
    let ((name, isOptional), rest) ← memberKey? ts
    let (type, rest) ← type? fuel rest
    match rest with
    | .mark ';' :: rest => do
      let (others, rest) ← members? fuel rest
      return ((name, isOptional, type) :: others, rest)
    | _ => none

end

/-- The tree of a text that is a type expression and nothing else. -/
def readType? (text : List Char) : Option TypeTree := do
  let ts ← tokens? text
  let (t, rest) ← type? (3 * ts.length) ts
  if rest.isEmpty then some t else none

/-! ## Tokens that are a type -/

def goesOn (t : Token) : Bool :=
  t == .mark '[' || t == .mark '|' || t == .mark '<'

/-- Tokens are read as a type in front of everything that does not go on with it. -/
structure Whole (ts : List Token) (tree : TypeTree) : Prop where
  ne_nil : ts ≠ []
  read : ∀ (fuel : Nat) (rest : List Token), 3 * ts.length ≤ fuel →
    (∀ t ∈ rest.head?, goesOn t = false) → type? fuel (ts ++ rest) = some (tree, rest)

structure Operand (ts : List Token) (tree : TypeTree) : Prop where
  ne_nil : ts ≠ []
  read : ∀ (fuel : Nat) (rest : List Token), 3 * ts.length ≤ fuel + 1 →
    rest.head? ≠ some (.mark '<') → operand? fuel (ts ++ rest) = some (tree.brackets rest)

section Parse

variable {ts : List Token} {tree : TypeTree}

theorem brackets_of_head? {rest : List Token} (h : rest.head? ≠ some (.mark '['))
    (tree : TypeTree) : tree.brackets rest = (tree, rest) := by
  rw [TypeTree.brackets]
  rintro after rfl
  exact h rfl

theorem head?_ne_of_goesOn {rest : List Token} (h : ∀ t ∈ rest.head?, goesOn t = false)
    {t : Token} (ht : goesOn t = true) : rest.head? ≠ some t := by
  intro hhead
  exact absurd ((h t hhead).symm.trans ht) (by decide)

theorem alternatives?_of_goesOn {rest : List Token} (h : ∀ t ∈ rest.head?, goesOn t = false)
    (fuel : Nat) : alternatives? (fuel + 1) rest = some ([], rest) := by
  rw [alternatives?]
  rintro after rfl
  exact absurd (h _ rfl) (by decide)

/-- An operand is a type. -/
theorem Operand.whole (h : Operand ts tree) : Whole ts tree := by
  refine ⟨h.ne_nil, ?_⟩
  intro fuel rest hfuel hrest
  have hlength : 0 < ts.length := List.length_pos_of_ne_nil h.ne_nil
  obtain ⟨fuel, rfl⟩ : ∃ f, fuel = f + 2 := ⟨fuel - 2, by omega⟩
  have hoperand := h.read (fuel + 1) rest (by omega) (head?_ne_of_goesOn hrest rfl)
  rw [brackets_of_head? (head?_ne_of_goesOn hrest rfl)] at hoperand
  rw [type?, hoperand]
  simp [alternatives?_of_goesOn hrest, TypeTree.alternatives]

theorem Operand.array (h : Operand ts tree) :
    Operand (ts ++ [.mark '[', .mark ']']) (.array tree) := by
  refine ⟨by simp, ?_⟩
  intro fuel rest hfuel _
  rw [List.length_append] at hfuel
  have hoperand := h.read fuel (.mark '[' :: .mark ']' :: rest) (by omega) (by simp)
  rw [List.append_assoc]
  exact hoperand

theorem operand_atom (a : Atom) : Operand [.atom a] (.atom a) := by
  refine ⟨by simp, ?_⟩
  intro fuel rest hfuel hrest
  obtain ⟨fuel, rfl⟩ : ∃ f, fuel = f + 2 := ⟨fuel - 2, by simp at hfuel; omega⟩
  have hprimary : primary? (fuel + 1) (.atom a :: rest) = some (.atom a, rest) := by
    rw [primary?]
    rintro name after rfl rfl
    exact hrest rfl
  rw [operand?, List.singleton_append, hprimary]
  rfl

/-- Parentheses make an operand of every type. -/
theorem Whole.parens (h : Whole ts tree) : Operand (.mark '(' :: ts ++ [.mark ')']) tree := by
  refine ⟨by simp, ?_⟩
  intro fuel rest hfuel _
  simp only [List.cons_append, List.length_cons, List.length_append, List.length_nil] at hfuel
  obtain ⟨fuel, rfl⟩ : ∃ f, fuel = f + 2 := ⟨fuel - 2, by omega⟩
  have htype := h.read fuel (.mark ')' :: rest) (by omega) (by rintro t ⟨⟩; rfl)
  have hprimary : primary? (fuel + 1) (.mark '(' :: (ts ++ .mark ')' :: rest)) =
      some (tree, rest) := by
    rw [primary?, htype]
    rfl
  have hassoc : .mark '(' :: ts ++ [.mark ')'] ++ rest =
      .mark '(' :: (ts ++ .mark ')' :: rest) := by
    simp
  rw [operand?, hassoc, hprimary]
  rfl

/-- The tokens of the words behind the first one of a union. -/
def barred (as : List Atom) : List Token :=
  as.flatMap fun a => [.mark '|', .atom a]

theorem length_barred (as : List Atom) : (barred as).length = 2 * as.length := by
  induction as with
  | nil => rfl
  | cons a as ih =>
    show (barred as).length + 2 = 2 * (as.length + 1)
    omega

theorem head?_barred {rest : List Token} (hrest : ∀ t ∈ rest.head?, goesOn t = false)
    (as : List Atom) {t : Token} (ht : goesOn t = true) (hbar : t ≠ .mark '|') :
    (barred as ++ rest).head? ≠ some t := by
  cases as with
  | nil => exact head?_ne_of_goesOn hrest ht
  | cons a as =>
    rintro ⟨⟩
    exact hbar rfl

/-- A word in a union is an operand. -/
theorem operand?_barred {rest : List Token} (hrest : ∀ t ∈ rest.head?, goesOn t = false)
    (a : Atom) (as : List Atom) (fuel : Nat) :
    operand? (fuel + 2) (.atom a :: (barred as ++ rest)) = some (.atom a, barred as ++ rest) := by
  have hoperand := (operand_atom a).read (fuel + 2) (barred as ++ rest) (by simp)
    (head?_barred hrest as rfl (by decide))
  rwa [brackets_of_head? (head?_barred hrest as rfl (by decide))] at hoperand

theorem alternatives?_barred {rest : List Token} (hrest : ∀ t ∈ rest.head?, goesOn t = false)
    (as : List Atom) (fuel : Nat) (hfuel : 3 * as.length + 1 ≤ fuel) :
    alternatives? fuel (barred as ++ rest) = some (as.map .atom, rest) := by
  -- behind each bar there is a call for the operand and one for what it begins with
  induction as generalizing fuel with
  | nil =>
    obtain ⟨fuel, rfl⟩ : ∃ f, fuel = f + 1 := ⟨fuel - 1, by omega⟩
    exact alternatives?_of_goesOn hrest fuel
  | cons a as ih =>
    rw [List.length_cons] at hfuel
    obtain ⟨fuel, rfl⟩ : ∃ f, fuel = f + 3 := ⟨fuel - 3, by omega⟩
    have hothers := ih (fuel + 2) (by omega)
    show alternatives? (fuel + 3) (.mark '|' :: .atom a :: (barred as ++ rest)) = _
    rw [alternatives?, operand?_barred hrest]
    simp [hothers]

/-- Words between bars are a type. -/
theorem whole_atoms (a : Atom) (as : List Atom) :
    Whole (.atom a :: barred as) ((TypeTree.atom a).alternatives (as.map .atom)) := by
  refine ⟨by simp, ?_⟩
  intro fuel rest hfuel hrest
  rw [List.length_cons, length_barred] at hfuel
  obtain ⟨fuel, rfl⟩ : ∃ f, fuel = f + 3 := ⟨fuel - 3, by omega⟩
  have hothers := alternatives?_barred hrest as (fuel + 2) (by omega)
  rw [List.cons_append, type?, operand?_barred hrest]
  simp [hothers]

/-! ## Arguments and members -/

/-- A name with two arguments, of which the first is a word. -/
theorem Whole.apply (h : Whole ts tree) (name : String) (a : Atom) :
    Operand (.atom (.name name) :: .mark '<' :: .atom a :: .mark ',' :: ts ++ [.mark '>'])
      (.apply name [.atom a, tree]) := by
  refine ⟨by simp, ?_⟩
  intro fuel rest hfuel _
  simp only [List.cons_append, List.length_cons, List.length_append, List.length_nil] at hfuel
  obtain ⟨fuel, rfl⟩ : ∃ f, fuel = f + 4 := ⟨fuel - 4, by omega⟩
  have htype := h.read fuel (.mark '>' :: rest) (by omega) (by rintro t ⟨⟩; rfl)
  have hfirst := (operand_atom a).whole.read (fuel + 1) (.mark ',' :: (ts ++ .mark '>' :: rest))
    (by simp; omega) (by rintro t ⟨⟩; rfl)
  have hsecond : arguments? (fuel + 1) (ts ++ .mark '>' :: rest) = some ([tree], rest) := by
    rw [arguments?, htype]
    rfl
  have harguments : arguments? (fuel + 2) (.atom a :: .mark ',' :: (ts ++ .mark '>' :: rest)) =
      some ([.atom a, tree], rest) := by
    rw [arguments?]
    rw [List.singleton_append] at hfirst
    rw [hfirst]
    simp [hsecond]
  have hprimary : primary? (fuel + 3) (.atom (.name name) :: .mark '<' :: .atom a :: .mark ',' ::
      (ts ++ .mark '>' :: rest)) = some (.apply name [.atom a, tree], rest) := by
    rw [primary?, harguments]
    rfl
  rw [operand?]
  simp only [List.cons_append, List.append_assoc, List.nil_append]
  rw [hprimary]
  rfl

inductive Members : List Token → List (String × Bool × TypeTree) → Prop
  | nil : Members [] []
  | cons {a : Atom} {name : String} {isOptional : Bool} {ts rest : List Token} {tree : TypeTree}
      {members : List (String × Bool × TypeTree)} (hkey : a.key? = some name)
      (htype : Whole ts tree) (h : Members rest members) :
      Members (.atom a :: (if isOptional then [.mark '?'] else []) ++ .mark ':' :: ts ++
        .mark ';' :: rest) ((name, isOptional, tree) :: members)

theorem memberKey?_eq {a : Atom} {name : String} (hkey : a.key? = some name) (isOptional : Bool)
    (rest : List Token) :
    memberKey? (.atom a :: (if isOptional then [.mark '?'] else []) ++ .mark ':' :: rest) =
      some ((name, isOptional), rest) := by
  cases isOptional with
  | false => simp [memberKey?, hkey]
  | true => simp [memberKey?, hkey]

theorem Members.read {members : List (String × Bool × TypeTree)} (h : Members ts members)
    (rest : List Token) : ∀ fuel : Nat, 3 * ts.length + 1 ≤ fuel →
      members? fuel (ts ++ .mark '\x7d' :: rest) = some (members, rest) := by
  induction h with
  | nil =>
    intro fuel hfuel
    obtain ⟨fuel, rfl⟩ : ∃ f, fuel = f + 1 := ⟨fuel - 1, by omega⟩
    rw [List.nil_append, members?]
  | @cons a name isOptional ts more tree members hkey htype _ ih =>
    intro fuel hfuel
    simp only [List.cons_append, List.length_cons, List.length_append] at hfuel
    obtain ⟨fuel, rfl⟩ : ∃ f, fuel = f + 1 := ⟨fuel - 1, by omega⟩
    have htype := htype.read fuel (.mark ';' :: (more ++ .mark '\x7d' :: rest)) (by omega)
      (by rintro t ⟨⟩; rfl)
    have hmembers := ih fuel (by omega)
    have hmember := memberKey?_eq hkey isOptional
      (ts ++ .mark ';' :: (more ++ .mark '\x7d' :: rest))
    have hassoc : .atom a :: (if isOptional then [.mark '?'] else []) ++ .mark ':' :: ts ++
        .mark ';' :: more ++ .mark '\x7d' :: rest = .atom a ::
          (if isOptional then [.mark '?'] else []) ++ .mark ':' ::
            (ts ++ .mark ';' :: (more ++ .mark '\x7d' :: rest)) := by
      simp
    rw [hassoc, members?, hmember]
    · simp [htype, hmembers]
    · simp

theorem Members.object {members : List (String × Bool × TypeTree)} (h : Members ts members) :
    Operand (.mark '\x7b' :: ts ++ [.mark '\x7d']) (.object members) := by
  refine ⟨by simp, ?_⟩
  intro fuel rest hfuel _
  simp only [List.cons_append, List.length_cons, List.length_append, List.length_nil] at hfuel
  obtain ⟨fuel, rfl⟩ : ∃ f, fuel = f + 2 := ⟨fuel - 2, by omega⟩
  have hmembers := h.read rest fuel (by omega)
  have hprimary : primary? (fuel + 1) (.mark '\x7b' :: (ts ++ .mark '\x7d' :: rest)) =
      some (.object members, rest) := by
    rw [primary?, hmembers]
    rfl
  have hassoc : .mark '\x7b' :: ts ++ [.mark '\x7d'] ++ rest =
      .mark '\x7b' :: (ts ++ .mark '\x7d' :: rest) := by
    simp
  rw [operand?, hassoc, hprimary]
  rfl

/-- The tokens of a whole text are read with the fuel that the text gives. -/
theorem Whole.readType? {text : List Char} (h : Whole ts tree) (htokens : tokens? text = some ts) :
    readType? text = some tree := by
  have hread := h.read (3 * ts.length) [] (Nat.le_refl _) (by simp)
  rw [List.append_nil] at hread
  simp [Code.readType?, htokens, hread]

example : readType? "a | /* ] */ (b | 1)[]".toList =
    some (.union [.atom (.name "a"),
      .array (.union [.atom (.name "b"), .atom (.number "1")])]) := by
  cbv

end Parse

end Code

end OpenApiClient
