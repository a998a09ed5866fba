import OpenApiClient.Client.PathTemplate
import OpenApiClient.Proofs.Code.Property

/-!
# Reading addresses back

The address of a request is a text between single quotes or a template literal. Both are read here
from after the opening quote: a backslash makes the next character a plain one, the quote ends the
literal and must be its last character, and in a template `$` before a brace opens an expression
that ends at the next closing brace. What the library writes is read as what it was written from: a
quoted text as the text (`readQuoted?_flatMap_guarded`), and the address of a path as the characters
of its fixed pieces and one access for each placeholder, in order (`readTemplate?_address`).
-/

namespace OpenApiClient

namespace Text

variable {c x : Char} {more new cs : List Char}

theorem replace_cons_of_ne (h : x ≠ c) (cs : List Char) :
    replace c more new (x :: cs) = x :: replace c more new cs := by
  rw [replace, if_neg h]

theorem replace_cons_of_none (h : afterHead? more cs = none) :
    replace c more new (x :: cs) = x :: replace c more new cs := by
  by_cases hx : x = c
  · rw [replace, if_pos hx]
    split
    next rest hrest => simp [h] at hrest
    next => rfl
  · exact replace_cons_of_ne hx cs

theorem replace_cons_of_some {rest : List Char} (h : afterHead? more cs = some rest) :
    replace c more new (c :: cs) = new ++ replace c more new rest := by
  rw [replace, if_pos rfl]
  split
  next rest' hrest =>
    rw [h, Option.some.injEq] at hrest
    rw [hrest]
  next hnone => simp [h] at hnone

/-- Replacing a single character goes on character by character. -/
theorem replace_char (c : Char) (new : List Char) : ∀ cs : List Char,
    replace c [] new cs = cs.flatMap fun x => if x = c then new else [x]
  | [] => by simp [replace]
  | x :: cs => by
    have ih := replace_char c new cs
    by_cases hx : x = c
    · subst hx
      rw [replace_cons_of_some (show afterHead? [] cs = some cs from rfl), ih, List.flatMap_cons,
        if_pos rfl]
    · rw [replace_cons_of_ne hx, ih, List.flatMap_cons, if_neg hx]
      rfl

/-- A character between quotes of a given kind: a backslash goes before a quote and before a
backslash. -/
def guarded (quote c : Char) : List Char :=
  if c = '\\' then ['\\', '\\'] else if c = quote then ['\\', quote] else [c]

theorem guarded_of_ne {quote : Char} (hback : c ≠ '\\') (hquote : c ≠ quote) :
    guarded quote c = [c] := by
  rw [guarded, if_neg hback, if_neg hquote]

/-- Backslashes are doubled before quotes get one, so that no quote gets two. -/
theorem replace_replace_quote {quote : Char} (hquote : quote ≠ '\\') (cs : List Char) :
    replace quote [] ['\\', quote] (replace '\\' [] ['\\', '\\'] cs) =
      cs.flatMap (guarded quote) := by
  have hchar : ∀ c, ((if c = '\\' then ['\\', '\\'] else [c]).flatMap fun x =>
      if x = quote then ['\\', quote] else [x]) = guarded quote c := by
    intro c
    unfold guarded
    split_ifs with hback hc
    · simp [hquote.symm]
    · simp [hc]
    · simp [hc]
  rw [replace_char, replace_char, List.flatMap_assoc]
  simp only [hchar]

end Text

namespace Code

/-- The text between single quotes, from after the first one. -/
def readQuoted? : List Char → Option (List Char)
  | [] => none
  | '\'' :: rest => if rest.isEmpty then some [] else none
  | '\\' :: c :: rest => (readQuoted? rest).map (c :: ·)
  | c :: rest => (readQuoted? rest).map (c :: ·)

theorem toList_singleQuoted (s : String) :
    (singleQuoted s).toList = '\'' :: s.toList.flatMap (Text.guarded '\'') ++ ['\''] := by
  have hescaped : (Text.replaceString "'" "\\'" (Text.replaceString "\\" "\\\\" s)).toList =
      s.toList.flatMap (Text.guarded '\'') := by
    rw [← Text.replace_replace_quote (by decide)]
    show (String.ofList (Text.replace '\'' [] ['\\', '\'']
      (String.ofList (Text.replace '\\' [] ['\\', '\\'] s.toList)).toList)).toList = _
    rw [String.toList_ofList, String.toList_ofList]
  rw [singleQuoted, String.toList_append, String.toList_append, hescaped]
  rfl

theorem readQuoted?_guarded (c : Char) {cs rest : List Char} (h : readQuoted? rest = some cs) :
    readQuoted? (Text.guarded '\'' c ++ rest) = some (c :: cs) := by
  unfold Text.guarded
  split_ifs with hback hquote
  · subst hback
    simp [readQuoted?, h]
  · subst hquote
    simp [readQuoted?, h]
  · rw [List.singleton_append, readQuoted?, h]
    · rfl
    all_goals simp [hback, hquote]

theorem readQuoted?_flatMap_guarded : ∀ cs : List Char,
    readQuoted? (cs.flatMap (Text.guarded '\'') ++ ['\'']) = some cs
  | [] => rfl
  | c :: cs => by
    rw [List.flatMap_cons, List.append_assoc]
    exact readQuoted?_guarded c (readQuoted?_flatMap_guarded cs)

/-! ## Template literals -/

inductive TemplateItem where
  | char (c : Char)
  | expression (text : List Char)
  deriving DecidableEq, Repr

def TemplateItem.expression? : TemplateItem → Option (List Char)
  | char _ => none
  | expression text => some text

/-- The items of a template literal, from after its opening backquote. -/
def readTemplate? (cs : List Char) : Option (List TemplateItem) :=
  match cs with
  | [] => none
  | '`' :: rest => if rest.isEmpty then some [] else none
  | '\\' :: c :: rest => (readTemplate? rest).map (.char c :: ·)
  | '$' :: '\x7b' :: rest =>
    match h : Text.cutAt? '\x7d' rest with
    | some (text, after) =>
      have : after.length < rest.length := by
        have := congrArg List.length (Text.cutAt?_eq_some_iff.mp h).1
        simp only [List.length_append, List.length_cons] at this
        omega
      (readTemplate? after).map (.expression text :: ·)
    | none => none
  | c :: rest => (readTemplate? rest).map (.char c :: ·)
termination_by cs.length
decreasing_by
  all_goals
    simp only [List.length_cons]
    omega

section Items

variable {c : Char} {items : List TemplateItem} {rest : List Char}

theorem readTemplate?_escaped (c : Char) (h : readTemplate? rest = some items) :
    readTemplate? ('\\' :: c :: rest) = some (.char c :: items) := by
  rw [readTemplate?, h]
  rfl

/-- A dollar is plain unless a brace follows it. -/
theorem readTemplate?_plain (hquote : c ≠ '`') (hback : c ≠ '\\')
    (hopen : c = '$' → rest.head? ≠ some '\x7b') (h : readTemplate? rest = some items) :
    readTemplate? (c :: rest) = some (.char c :: items) := by
  rw [readTemplate?, h]
  · rfl
  · exact hquote
  · simp [hback]
  · rintro after rfl rfl
    exact hopen rfl rfl

theorem readTemplate?_expression {text : List Char} (htext : '\x7d' ∉ text)
    (h : readTemplate? rest = some items) :
    readTemplate? (['$', '\x7b'] ++ text ++ ['\x7d'] ++ rest) =
      some (.expression text :: items) := by
  have hcut : Text.cutAt? '\x7d' (text ++ '\x7d' :: rest) = some (text, rest) :=
    Text.cutAt?_eq_some_iff.mpr ⟨rfl, htext⟩
  simp only [List.append_assoc, List.cons_append, List.nil_append]
  rw [readTemplate?]
  split
  next text' after hsome =>
    rw [hcut] at hsome
    cases hsome
    simp [h]
  next hnone => simp [hcut] at hnone

end Items

end Code

namespace PathPiece

open Code (TemplateItem readTemplate?)

/-! ## Fixed text -/

theorem escapeFixed_eq (text : List Char) :
    escapeFixed text =
      Text.replace '$' ['\x7b'] ['\\', '$', '\x7b'] (text.flatMap (Text.guarded '`')) := by
  rw [escapeFixed, Text.replace_replace_quote (by decide)]

theorem escapeFixed_nil : escapeFixed [] = [] := by
  simp [escapeFixed_eq, Text.replace]

/-- Whether a character means something by itself in a template literal. -/
def IsMark (c : Char) : Prop := c = '\\' ∨ c = '`'

theorem escapeFixed_mark {c : Char} (h : IsMark c) (text : List Char) :
    escapeFixed (c :: text) = '\\' :: c :: escapeFixed text := by
  rw [escapeFixed_eq, escapeFixed_eq, List.flatMap_cons]
  rcases h with rfl | rfl
  · show Text.replace _ _ _ ('\\' :: '\\' :: text.flatMap (Text.guarded '`')) = _
    rw [Text.replace_cons_of_ne (by decide), Text.replace_cons_of_ne (by decide)]
  · show Text.replace _ _ _ ('\\' :: '`' :: text.flatMap (Text.guarded '`')) = _
    rw [Text.replace_cons_of_ne (by decide), Text.replace_cons_of_ne (by decide)]

theorem escapeFixed_opening (text : List Char) :
    escapeFixed ('$' :: '\x7b' :: text) = '\\' :: '$' :: '\x7b' :: escapeFixed text := by
  rw [escapeFixed_eq, escapeFixed_eq]
  exact Text.replace_cons_of_some rfl

/-- A text between backquotes begins with a brace only if the text does. -/
theorem afterHead?_flatMap_guarded {text : List Char} (h : text.head? ≠ some '\x7b') :
    Text.afterHead? ['\x7b'] (text.flatMap (Text.guarded '`')) = none := by
  cases text with
  | nil => rfl
  | cons c text =>
    have hc : '\x7b' ≠ c := fun heq => h (by rw [heq]; rfl)
    rw [List.flatMap_cons, Text.guarded]
    split_ifs
    · rfl
    · rfl
    · simp [Text.afterHead?, hc]

theorem escapeFixed_plain {c : Char} {text : List Char} (hmark : ¬IsMark c)
    (hopen : c = '$' → text.head? ≠ some '\x7b') :
    escapeFixed (c :: text) = c :: escapeFixed text := by
  obtain ⟨hback, hquote⟩ := not_or.mp hmark
  rw [escapeFixed_eq, escapeFixed_eq, List.flatMap_cons, Text.guarded_of_ne hback hquote,
    List.singleton_append]
  by_cases hc : c = '$'
  · exact Text.replace_cons_of_none (afterHead?_flatMap_guarded (hopen hc))
  · exact Text.replace_cons_of_ne hc _

theorem head?_escapeFixed_append {text rest : List Char} (h : text.head? ≠ some '\x7b')
    (hrest : rest.head? ≠ some '\x7b') :
    (escapeFixed text ++ rest).head? ≠ some '\x7b' := by
  cases text with
  | nil => simpa [escapeFixed_nil] using hrest
  | cons c text =>
    by_cases hmark : IsMark c
    · rw [escapeFixed_mark hmark]
      simp
    by_cases hopen : c = '$' ∧ text.head? = some '\x7b'
    · obtain ⟨text, rfl⟩ := List.head?_eq_some_iff.mp hopen.2
      rw [hopen.1, escapeFixed_opening]
      simp
    · rw [escapeFixed_plain hmark (not_and.mp hopen)]
      simpa using h

/-- The fixed text of an address is read as its characters; none of them opens an expression or ends
the literal. -/
theorem readTemplate?_escapeFixed {rest : List Char} {items : List TemplateItem}
    (hrest : rest.head? ≠ some '\x7b') (h : readTemplate? rest = some items) :
    ∀ text : List Char,
      readTemplate? (escapeFixed text ++ rest) = some (text.map .char ++ items)
  | [] => by simpa [escapeFixed_nil] using h
  | c :: text => by
    have ih := readTemplate?_escapeFixed hrest h text
    by_cases hmark : IsMark c
    · rw [escapeFixed_mark hmark]
      exact Code.readTemplate?_escaped c ih
    obtain ⟨hback, hquote⟩ := not_or.mp hmark
    by_cases hopen : c = '$' ∧ text.head? = some '\x7b'
    · -- the brace behind the dollar is escaped with it, so two characters are read at once
      obtain ⟨after, rfl⟩ := List.head?_eq_some_iff.mp hopen.2
      have ih := readTemplate?_escapeFixed hrest h after
      rw [hopen.1, escapeFixed_opening]
      exact Code.readTemplate?_escaped '$'
        (Code.readTemplate?_plain (by decide) (by decide) (fun heq => absurd heq (by decide)) ih)
    · have hopen := not_and.mp hopen
      rw [escapeFixed_plain hmark hopen]
      exact Code.readTemplate?_plain hquote hback
        (fun hc => head?_escapeFixed_append (hopen hc) hrest) ih

/-! ## Placeholders -/

def items (object : String) : PathPiece → List TemplateItem
  | fixed text => text.map .char
  | placeholder name => [.expression (Code.propertyAccess object (String.ofList name)).toList]

end PathPiece

namespace Code

theorem mem_escapeChar_closing {c : Char} (h : '\x7d' ∈ Json.escapeChar c) : c = '\x7d' := by
  have hdigit : ∀ n : Fin 32,
      '\x7d' ≠ Json.hexDigit (n / 16) ∧ '\x7d' ≠ Json.hexDigit (n % 16) := by
    decide
  unfold Json.escapeChar at h
  split_ifs at h with _ _ _ _ _ _ _ hcontrol
  · simp at h
  · simp at h
  · simp at h
  · simp at h
  · simp at h
  · simp at h
  · simp at h
  · have := hdigit ⟨c.toNat, hcontrol⟩
    simp [this.1, this.2] at h
  · exact (List.mem_singleton.mp h).symm

/-- An access has a closing brace only if the object or the name has one. -/
theorem closing_not_mem_propertyAccess {object name : String} (hobject : '\x7d' ∉ object.toList)
    (hname : '\x7d' ∉ name.toList) : '\x7d' ∉ (propertyAccess object name).toList := by
  have hescaped : '\x7d' ∉ name.toList.flatMap Json.escapeChar := by
    intro h
    obtain ⟨c, hc, hmem⟩ := List.mem_flatMap.mp h
    exact hname (mem_escapeChar_closing hmem ▸ hc)
  unfold propertyAccess
  split_ifs <;> simp [toList_quote, hobject, hname, hescaped]

end Code

namespace PathPiece

open Code (TemplateItem readTemplate?)

/-- The cut of a path is read piece by piece. -/
theorem readTemplate?_flatMap_write {object : String} (hobject : '\x7d' ∉ object.toList)
    (path : List Char) :
    readTemplate? ((cut path).flatMap (write object) ++ ['`']) =
      some ((cut path).flatMap (items object)) := by
  have hend : readTemplate? ['`'] = some [] := by simp [readTemplate?]
  have hfixed : ∀ text, readTemplate? (escapeFixed text ++ ['`']) = some (text.map .char) :=
    fun text => by simpa using readTemplate?_escapeFixed (by simp) hend text
  fun_induction cut path with
  | case1 path h => simpa [write, items] using hfixed path
  | case2 path before after h h' => simpa [write, items] using hfixed path
  | case3 path before after h name rest h' _ ih =>
    have hname : '\x7d' ∉ name := (Text.cutAt?_eq_some_iff.mp h').2
    have haccess : '\x7d' ∉ (Code.propertyAccess object (String.ofList name)).toList :=
      Code.closing_not_mem_propertyAccess hobject (by simpa)
    have hrest := Code.readTemplate?_expression haccess ih
    have hbefore := readTemplate?_escapeFixed (by simp) hrest before
    simpa [write, items] using hbefore

end PathPiece

namespace PathTemplate

/-- **Addresses.** The address of a path is a template literal that ends at its last character and
is made of the characters of the fixed pieces and one access for each placeholder, in order. -/
theorem readTemplate?_address {object : String} (hobject : '\x7d' ∉ object.toList)
    (path : String) :
    ∃ rest, (address object path).toList = '`' :: rest ∧
      Code.readTemplate? rest =
        some ((PathPiece.cut path.toList).flatMap (PathPiece.items object)) :=
  ⟨_, by rw [address, String.toList_ofList]; rfl,
    PathPiece.readTemplate?_flatMap_write hobject path.toList⟩

end PathTemplate

end OpenApiClient
