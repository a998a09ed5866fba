import OpenApiClient.Proofs.Json.Compact

/-!
# Texts with spaces

A text of a value may have spaces between its parts. A `Spacing` says which: those in front of every
item, every entry and every closing bracket, by their depth, and those after every colon. Both texts
that are written for a value are of this kind, the compact one without any space
(`toList_compact`) and the indented one with a line for each item (`toList_pretty`). The first
character of such a text still tells the kind of the value.
-/

namespace OpenApiClient.Json

/-- The spaces of a text: where a new line may begin at a depth, and in front of the value of an
entry. -/
structure Spacing where
  line : Nat → List Char
  value : List Char
  isSpace_line : ∀ depth, ∀ c ∈ line depth, isSpace c = true
  isSpace_value : ∀ c ∈ value, isSpace c = true

namespace Spacing

def none : Spacing where
  line _ := []
  value := []
  isSpace_line := by simp
  isSpace_value := by simp

/-- A line for each item, indented by two blanks for each level. -/
def indented : Spacing where
  line depth := '\n' :: List.replicate (2 * depth) ' '
  value := [' ']
  isSpace_line depth := by simp [isSpace]
  isSpace_value := by simp [isSpace]

variable (sp : Spacing)

mutual

def text (depth : Nat) : Json → List Char
  | .arr [] => ['[', ']']
  | .arr (v :: rest) =>
    '[' :: (sp.line (depth + 1) ++ (text (depth + 1) v ++
      (moreItems (depth + 1) rest ++ (sp.line depth ++ [']']))))
  | .obj [] => ['\x7b', '\x7d']
  | .obj ((key, v) :: rest) =>
    '\x7b' :: (sp.line (depth + 1) ++ (quoteChars key.toList ++ (':' :: (sp.value ++
      (text (depth + 1) v ++ (moreEntries (depth + 1) rest ++ (sp.line depth ++ ['\x7d'])))))))
  | .null => "null".toList
  | .bool b => (toString b).toList
  | .num n => n.text.toList
  | .str s => quoteChars s.toList

def moreItems (depth : Nat) : List Json → List Char
  | [] => []
  | v :: rest => ',' :: (sp.line depth ++ (text depth v ++ moreItems depth rest))

def moreEntries (depth : Nat) : List (String × Json) → List Char
  | [] => []
  | (key, v) :: rest =>
    ',' :: (sp.line depth ++ (quoteChars key.toList ++ (':' :: (sp.value ++
      (text depth v ++ moreEntries depth rest)))))

end

def document (v : Json) : String :=
  String.ofList (sp.text 0 v)

theorem text_str_append (depth : Nat) (s : String) (rest : List Char) :
    sp.text depth (.str s) ++ rest = '"' :: (s.toList.flatMap escapeChar ++ '"' :: rest) := by
  simp [text, quoteChars]

theorem length_le_moreItems (depth : Nat) (items : List Json) :
    items.length ≤ (sp.moreItems depth items).length := by
  induction items with
  | nil => exact Nat.le_refl 0
  | cons v rest ih =>
    rw [moreItems, List.length_cons, List.length_cons, List.length_append, List.length_append]
    omega

/-- The first character of a text tells the kind of the value. -/
theorem exists_head_text {v : Json} (depth : Nat) (h : v.HasFiniteNumbers) :
    ∃ c rest, sp.text depth v = c :: rest ∧ Kind.ofChar? c = some v.kind := by
  cases v with
  | null => exact ⟨_, _, rfl, rfl⟩
  | bool b => cases b <;> exact ⟨_, _, rfl, rfl⟩
  | num n => exact exists_head_compact h
  | str s => exact ⟨_, _, rfl, rfl⟩
  | arr items => cases items <;> exact ⟨_, _, rfl, rfl⟩
  | obj entries =>
    cases entries with
    | nil => exact ⟨_, _, rfl, rfl⟩
    | cons e rest => exact ⟨_, _, rfl, rfl⟩

end Spacing

/-! ## The texts that are written -/

mutual

/-- The compact text has no spaces. -/
theorem toList_compact : ∀ (depth : Nat) (v : Json), v.compact.toList = Spacing.none.text depth v
  | _, .null => rfl
  | _, .bool true => rfl
  | _, .bool false => rfl
  | _, .num _ => rfl
  | _, .str s => Code.toList_quote s
  | _, .arr [] => rfl
  | depth, .arr (v :: rest) => by
    have hitems := toList_compactItems (depth + 1) (v :: rest)
    rw [compact, String.toList_append, String.toList_append, hitems]
    simp [Spacing.text, Spacing.moreItems, Spacing.none]
  | _, .obj [] => rfl
  | depth, .obj ((key, v) :: rest) => by
    have hentries := toList_compactEntries (depth + 1) ((key, v) :: rest)
    rw [compact, String.toList_append, String.toList_append, hentries]
    simp [Spacing.text, Spacing.moreEntries, Spacing.none]

theorem toList_compactItems : ∀ (depth : Nat) (items : List Json),
    (compactItems items).toList = (Spacing.none.moreItems depth items).tail
  | _, [] => rfl
  | depth, [v] => by
    rw [compactItems, toList_compact depth v]
    simp [Spacing.moreItems, Spacing.none]
  | depth, v :: w :: rest => by
    have hrest := toList_compactItems depth (w :: rest)
    rw [compactItems, String.toList_append, String.toList_append, hrest, toList_compact depth v]
    · simp [Spacing.moreItems, Spacing.none]
    · simp

theorem toList_compactEntries : ∀ (depth : Nat) (entries : List (String × Json)),
    (compactEntries entries).toList = (Spacing.none.moreEntries depth entries).tail
  | _, [] => rfl
  | depth, [(key, v)] => by
    rw [compactEntries, String.toList_append, String.toList_append, Code.toList_quote,
      toList_compact depth v]
    simp [Spacing.moreEntries, Spacing.none, quoteChars]
  | depth, (key, v) :: e :: rest => by
    have hrest := toList_compactEntries depth (e :: rest)
    rw [compactEntries, String.toList_append, String.toList_append, String.toList_append,
      String.toList_append, hrest, Code.toList_quote, toList_compact depth v]
    · simp [Spacing.moreEntries, Spacing.none, quoteChars]
    · simp

end

mutual

/-- The indented text has a line for each item. -/
theorem toList_pretty : ∀ (depth : Nat) (v : Json),
    (v.pretty depth).toList = Spacing.indented.text depth v
  | _, .null => rfl
  | _, .bool true => rfl
  | _, .bool false => rfl
  | _, .num _ => rfl
  | _, .str s => Code.toList_quote s
  | _, .arr [] => by
    simp [pretty, Spacing.text]
  | depth, .arr (v :: rest) => by
    have hitems := toList_prettyItems (depth + 1) (v :: rest)
    rw [pretty, String.toList_append, String.toList_append, String.toList_append,
      String.toList_append, hitems]
    · simp [Spacing.text, Spacing.moreItems, Spacing.indented, indentOf]
    · simp
  | _, .obj [] => by
    simp [pretty, Spacing.text]
  | depth, .obj ((key, v) :: rest) => by
    have hentries := toList_prettyEntries (depth + 1) ((key, v) :: rest)
    rw [pretty, String.toList_append, String.toList_append, String.toList_append,
      String.toList_append, hentries]
    · simp [Spacing.text, Spacing.moreEntries, Spacing.indented, indentOf]
    · simp

/-- Without the comma and the new line in front, these are the items of the indented text. -/
theorem toList_prettyItems : ∀ (depth : Nat) (items : List Json),
    (prettyItems depth items).toList = (Spacing.indented.moreItems depth items).drop 2
  | _, [] => rfl
  | depth, [v] => by
    rw [prettyItems, String.toList_append, toList_pretty depth v]
    simp [Spacing.moreItems, Spacing.indented, indentOf]
  | depth, v :: w :: rest => by
    have hrest := toList_prettyItems depth (w :: rest)
    rw [prettyItems, String.toList_append, String.toList_append, String.toList_append,
      toList_pretty depth v, hrest]
    · simp [Spacing.moreItems, Spacing.indented, indentOf]
    · simp

theorem toList_prettyEntries : ∀ (depth : Nat) (entries : List (String × Json)),
    (prettyEntries depth entries).toList = (Spacing.indented.moreEntries depth entries).drop 2
  | _, [] => rfl
  | depth, [(key, v)] => by
    rw [prettyEntries, String.toList_append, String.toList_append, String.toList_append,
      Code.toList_quote, toList_pretty depth v]
    simp [Spacing.moreEntries, Spacing.indented, indentOf, quoteChars]
  | depth, (key, v) :: e :: rest => by
    have hrest := toList_prettyEntries depth (e :: rest)
    rw [prettyEntries, String.toList_append, String.toList_append, String.toList_append,
      String.toList_append, String.toList_append, hrest, Code.toList_quote, toList_pretty depth v]
    · simp [Spacing.moreEntries, Spacing.indented, indentOf, quoteChars]
    · simp

end

theorem document_none (v : Json) : Spacing.none.document v = v.compact := by
  rw [Spacing.document, ← toList_compact, String.ofList_toList]

theorem document_indented (v : Json) : Spacing.indented.document v = v.pretty 0 := by
  rw [Spacing.document, ← toList_pretty, String.ofList_toList]

end OpenApiClient.Json
