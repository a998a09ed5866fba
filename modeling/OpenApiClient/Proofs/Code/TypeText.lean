import OpenApiClient.Proofs.Code.TypeTree

/-!
# Texts of types that are read

The ways to write a type, and what their texts are read as. Whether an item type stands in
parentheses is decided by its text alone. That is enough because the text of a union always has a
bar between blanks: every text without one is an operand, and `Reads` says so of all texts.
-/

namespace OpenApiClient

namespace Code

def Atom.text : Atom → String
  | name text => text
  | string value => Json.quote value
  | number text => text

namespace TypeTree

def any : TypeTree := atom (.name "any")

def record (value : TypeTree) : TypeTree :=
  apply "Record" [atom (.name "string"), value]

/-- One of several words, or everything if there is none. -/
def oneOf : List Atom → TypeTree
  | [] => any
  | a :: as => (atom a).alternatives (as.map atom)

end TypeTree

/-! ## Texts that are read -/

/-- A text is read as a type, and as an operand if it would not be put in parentheses. -/
def Reads (text : List Char) (tree : TypeTree) : Prop :=
  ∃ ts, LexesBefore text ts ∧ Whole ts tree ∧ (TypeExpr.needsParens text = false → Operand ts tree)

section Reads

variable {text : List Char} {tree : TypeTree}

theorem Reads.readType? (h : Reads text tree) : readType? text = some tree := by
  obtain ⟨ts, hlexes, hwhole, -⟩ := h
  exact hwhole.readType? hlexes.tokens?

theorem reads_of_operand {ts : List Token} (hlexes : LexesBefore text ts)
    (h : Operand ts tree) : Reads text tree :=
  ⟨ts, hlexes, h.whole, fun _ => h⟩

theorem reads_name {name : String} (h : isIdentifier name = true) :
    Reads name.toList (.atom (.name name)) :=
  reads_of_operand (lexesBefore_name h) (operand_atom _)

theorem Reads.array (h : Reads text tree) :
    Reads (if TypeExpr.needsParens text then '(' :: text ++ [')', '[', ']'] else text ++ ['[', ']'])
      (.array tree) := by
  obtain ⟨ts, hlexes, hwhole, hoperand⟩ := h
  have hclosing : Lexes [']'] [.mark ']'] := lexes_mark (by decide)
  have hbrackets : Lexes ['[', ']'] [.mark '[', .mark ']'] :=
    (lexes_mark (by decide)).append hclosing
  split_ifs with hparens
  · have hopening : Lexes ['('] [.mark '('] := lexes_mark (by decide)
    have hrest : Lexes [')', '[', ']'] [.mark ')', .mark '[', .mark ']'] :=
      (lexes_mark (by decide)).append hbrackets
    have hall := hopening.append (hlexes.append (by decide) hrest)
    have htokens : [.mark '('] ++ (ts ++ [.mark ')', .mark '[', .mark ']']) =
        .mark '(' :: ts ++ [.mark ')'] ++ [.mark '[', .mark ']'] := by
      simp
    rw [htokens] at hall
    exact reads_of_operand hall.before hwhole.parens.array
  · have hall := hlexes.append (by decide) hbrackets
    exact reads_of_operand hall.before (hoperand (Bool.eq_false_iff.mpr hparens)).array

theorem lexes_recordHead :
    Lexes "Record<string, ".toList
      [.atom (.name "Record"), .mark '<', .atom (.name "string"), .mark ','] := by
  have hend : Lexes [',', ' '] [.mark ','] :=
    (lexes_mark (by decide)).append (lexes_space (by decide))
  have hkey : Lexes "string, ".toList [.atom (.name "string"), .mark ','] :=
    (lexesBefore_name (by decide : isIdentifier "string" = true)).append (by decide) hend
  have harguments : Lexes "<string, ".toList [.mark '<', .atom (.name "string"), .mark ','] :=
    (lexes_mark (by decide)).append hkey
  exact (lexesBefore_name (by decide : isIdentifier "Record" = true)).append (by decide) harguments

theorem Reads.record (h : Reads text tree) :
    Reads ("Record<string, ".toList ++ text ++ ['>']) (.record tree) := by
  obtain ⟨ts, hlexes, hwhole, -⟩ := h
  have hclosing : Lexes ['>'] [.mark '>'] := lexes_mark (by decide)
  have hall := lexes_recordHead.append (hlexes.append (by decide) hclosing)
  rw [← List.append_assoc] at hall
  exact reads_of_operand hall.before (hwhole.apply "Record" (.name "string"))

end Reads

/-! ## Unions -/

/-- A word stands for itself in its text. -/
def Atom.IsLegible (a : Atom) : Prop :=
  LexesBefore a.text.toList [.atom a]

theorem Atom.IsLegible.injective {a b : Atom} (ha : a.IsLegible) (hb : b.IsLegible)
    (h : a.text = b.text) : a = b := by
  have hread := ha.tokens?
  rw [h, hb.tokens?] at hread
  simpa using hread.symm

/-- No word is written like an object. -/
theorem Atom.IsLegible.head? {a : Atom} (h : a.IsLegible) :
    ∃ c ∈ a.text.toList.head?, c ≠ '\x7b' := by
  have hread := h.tokens?
  cases htext : a.text.toList with
  | nil => simp [htext, tokens?_nil] at hread
  | cons c rest =>
    refine ⟨c, rfl, ?_⟩
    rintro rfl
    have hbrace : lexeme? '\x7b' rest = some (some (.mark '\x7b'), rest) := by
      rw [lexeme?, if_neg (by decide), if_pos (by decide)]
    rw [htext, tokens?_cons hbrace, Option.map_eq_some_iff] at hread
    obtain ⟨ts, -, hts⟩ := hread
    simp at hts

theorem isInfixOf_append (before after : List Char) :
    Text.isInfixOf TypeExpr.bar (before ++ TypeExpr.bar ++ after) = true := by
  induction before with
  | nil =>
    have hafter : Text.afterHead? TypeExpr.bar (TypeExpr.bar ++ after) = some after :=
      Text.afterHead?_eq_some_iff.mpr rfl
    show ((Text.afterHead? TypeExpr.bar (TypeExpr.bar ++ after)).isSome || _) = true
    rw [hafter]
    rfl
  | cons c before ih =>
    rw [List.cons_append, List.cons_append, Text.isInfixOf, ih, Bool.or_true]

theorem lexesBefore_join {a : Atom} {as : List Atom} (ha : a.IsLegible)
    (has : ∀ b ∈ as, b.IsLegible) :
    LexesBefore (Text.join TypeExpr.bar ((a :: as).map fun b => b.text.toList))
      (.atom a :: barred as) := by
  induction as generalizing a with
  | nil => exact ha
  | cons b as ih =>
    have hrest := ih (has b List.mem_cons_self) fun d hd => has d (List.mem_cons_of_mem _ hd)
    have hspace : Lexes [' '] [] := lexes_space (by decide)
    have hbar : Lexes [' ', '|', ' '] [.mark '|'] :=
      hspace.append ((lexes_mark (by decide)).append hspace)
    have hall := ha.append_before (by decide) (hbar.append_before hrest)
    simpa [Text.join, TypeExpr.bar, barred] using hall

/-- Words between bars are read as a union, and a bar between blanks is found in the text. -/
theorem reads_join {a : Atom} {as : List Atom} (ha : a.IsLegible) (has : ∀ b ∈ as, b.IsLegible) :
    Reads (Text.join TypeExpr.bar ((a :: as).map fun b => b.text.toList)) (.oneOf (a :: as)) := by
  refine ⟨_, lexesBefore_join ha has, whole_atoms a as, ?_⟩
  intro hparens
  cases as with
  | nil => exact operand_atom a
  | cons b as =>
    -- with two words the text has a bar, and it does not begin like an object
    obtain ⟨c, hc, hbrace⟩ := ha.head?
    obtain ⟨rest, hrest⟩ := List.head?_eq_some_iff.mp hc
    have hjoin : Text.join TypeExpr.bar ((a :: b :: as).map fun b => b.text.toList) =
        a.text.toList ++ TypeExpr.bar ++
          Text.join TypeExpr.bar ((b :: as).map fun b => b.text.toList) := rfl
    have hhead : (a.text.toList ++ TypeExpr.bar ++
        Text.join TypeExpr.bar ((b :: as).map fun b => b.text.toList)).head? = some c := by
      rw [hrest]
      rfl
    rw [hjoin, TypeExpr.needsParens, isInfixOf_append, hhead] at hparens
    simp [hbrace] at hparens

/-! ## Objects -/

theorem lexes_margin (depth : Nat) : Lexes (TypeExpr.margin depth) [] := by
  apply lexes_spaces
  intro c hc
  obtain ⟨piece, hpiece, hmem⟩ := List.mem_flatten.mp hc
  rw [List.eq_of_mem_replicate hpiece] at hmem
  simp only [standardUnit, List.mem_cons, List.not_mem_nil, or_false, or_self] at hmem
  rw [hmem]
  decide

/-- Comments of members are skipped. -/
theorem lexes_memberDoc (depth : Nat) (doc : Option String) :
    Lexes (TypeExpr.memberDoc depth doc) [] := by
  cases doc with
  | none => exact .nil
  | some doc =>
    exact ((lexes_margin depth).append (lexes_docLine _)).append (lexes_space (by decide))

/-- A key is read as the name of the member, quoted or not. -/
theorem exists_propertyKey (name : String) :
    ∃ a : Atom, a.key? = some name ∧ LexesBefore (propertyKey name).toList [.atom a] := by
  unfold propertyKey
  split_ifs with h
  · exact ⟨.name name, rfl, lexesBefore_name h⟩
  · exact ⟨.string name, rfl, (lexes_quote name).before⟩

theorem lexes_memberHead (depth : Nat) (m : MemberHead) :
    ∃ a : Atom, a.key? = some m.name ∧ Lexes (TypeExpr.memberHead depth m)
      (.atom a :: (if m.isOptional then [.mark '?'] else []) ++ [.mark ':']) := by
  obtain ⟨a, hkey, hlexes⟩ := exists_propertyKey m.name
  have hcolon : Lexes [':', ' '] [.mark ':'] :=
    (lexes_mark (by decide)).append (lexes_space (by decide))
  have hquestion : Lexes ['?', ':', ' '] [.mark '?', .mark ':'] :=
    (lexes_mark (by decide)).append hcolon
  have hfront := (lexes_memberDoc depth m.doc).append (lexes_margin depth)
  refine ⟨a, hkey, ?_⟩
  unfold TypeExpr.memberHead
  rw [List.append_assoc]
  split_ifs
  · exact hfront.append (hlexes.append (by decide) hquestion)
  · exact hfront.append (hlexes.append (by decide) hcolon)

def ReadsMembers (text : List Char) (members : List (String × Bool × TypeTree)) : Prop :=
  ∃ ts, Lexes text ts ∧ Members ts members

theorem ReadsMembers.nil : ReadsMembers [] [] :=
  ⟨[], .nil, .nil⟩

theorem ReadsMembers.cons {text rest : List Char} {tree : TypeTree}
    {members : List (String × Bool × TypeTree)} (htype : Reads text tree)
    (h : ReadsMembers rest members) (depth : Nat) (m : MemberHead) :
    ReadsMembers (TypeExpr.memberHead depth m ++ text ++ [';', '\n'] ++ rest)
      ((m.name, m.isOptional, tree) :: members) := by
  obtain ⟨ts, hlexes, hwhole, -⟩ := htype
  obtain ⟨more, hmore, hmembers⟩ := h
  obtain ⟨a, hkey, hhead⟩ := lexes_memberHead depth m
  have hend : Lexes [';', '\n'] [.mark ';'] :=
    (lexes_mark (by decide)).append (lexes_space (by decide))
  have hall := (hhead.append (hlexes.append (by decide) hend)).append hmore
  refine ⟨_, ?_, .cons hkey hwhole hmembers⟩
  simpa using hall

theorem ReadsMembers.object {text : List Char} {members : List (String × Bool × TypeTree)}
    (h : ReadsMembers text members) (depth : Nat) :
    Reads ('\x7b' :: ('\n' :: text) ++ TypeExpr.margin depth ++ ['\x7d']) (.object members) := by
  obtain ⟨ts, hlexes, hmembers⟩ := h
  have hopening : Lexes ['\x7b', '\n'] [.mark '\x7b'] :=
    (lexes_mark (by decide)).append (lexes_space (by decide))
  have hclosing : Lexes ['\x7d'] [.mark '\x7d'] := lexes_mark (by decide)
  have hall := ((hopening.append hlexes).append (lexes_margin depth)).append hclosing
  refine reads_of_operand ?_ hmembers.object
  simpa using hall.before

end Code

end OpenApiClient
