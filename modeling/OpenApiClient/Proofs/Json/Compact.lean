import OpenApiClient.Proofs.Code.Property
import OpenApiClient.Proofs.Double.Text

/-!
# A compact text has one value

The first character of a compact text tells which kind of value is written, and in front of a
character that cannot go on with a number the text of a value ends where it must. So different
values with finite numbers have different compact texts (`eq_of_compact_eq`).
-/

namespace OpenApiClient.Json

mutual

/-- Whether all numbers in a value are integers or finite doubles. -/
def HasFiniteNumbers : Json → Prop
  | .num n => n.IsFinite
  | .arr items => ItemsHaveFiniteNumbers items
  | .obj entries => EntriesHaveFiniteNumbers entries
  | _ => True

def ItemsHaveFiniteNumbers : List Json → Prop
  | [] => True
  | v :: rest => v.HasFiniteNumbers ∧ ItemsHaveFiniteNumbers rest

def EntriesHaveFiniteNumbers : List (String × Json) → Prop
  | [] => True
  | (_, v) :: rest => v.HasFiniteNumbers ∧ EntriesHaveFiniteNumbers rest

end

theorem itemsHaveFiniteNumbers_iff (items : List Json) :
    ItemsHaveFiniteNumbers items ↔ ∀ v ∈ items, v.HasFiniteNumbers := by
  induction items with
  | nil => simp [ItemsHaveFiniteNumbers]
  | cons v rest ih => rw [ItemsHaveFiniteNumbers, ih, List.forall_mem_cons]

theorem entriesHaveFiniteNumbers_iff (entries : List (String × Json)) :
    EntriesHaveFiniteNumbers entries ↔ ∀ e ∈ entries, e.2.HasFiniteNumbers := by
  induction entries with
  | nil => simp [EntriesHaveFiniteNumbers]
  | cons e rest ih => rw [EntriesHaveFiniteNumbers, ih, List.forall_mem_cons]

/-- **Numbers.** Different finite numbers have different texts. -/
theorem Number.eq_of_text_eq {n m : Number} (hn : n.IsFinite) (hm : m.IsFinite)
    (h : n.text = m.text) : n = m := by
  have hdocument := Double.Layout.hasUsualSign_document
  cases n with
  | int n =>
    cases m with
    | int m => rw [Double.toString_int_inj h]
    | double d => exact absurd h.symm (Double.text_ne_toString hm .document n)
  | double d =>
    cases m with
    | int m => exact absurd h (Double.text_ne_toString hn .document m)
    | double d' => rw [Double.eq_of_text_eq hn hm hdocument hdocument h]

/-! ## First characters -/

inductive Kind where
  | null
  | bool
  | number
  | text
  | list
  | object
  deriving DecidableEq

def kind : Json → Kind
  | .null => .null
  | .bool _ => .bool
  | .num _ => .number
  | .str _ => .text
  | .arr _ => .list
  | .obj _ => .object

theorem exists_of_kind_number {v : Json} (h : v.kind = .number) : ∃ n, v = .num n := by
  cases v with
  | num n => exact ⟨n, rfl⟩
  | _ => cases h

/-- The kind of the values whose text begins with a character. -/
def Kind.ofChar? (c : Char) : Option Kind :=
  if c = 'n' then some .null
  else if c = 't' ∨ c = 'f' then some .bool
  else if c = '"' then some .text
  else if c = '[' then some .list
  else if c = '\x7b' then some .object
  else if c = '-' ∨ c.isDigit = true then some .number
  else none

theorem Kind.ofChar?_number {c : Char} (h : c = '-' ∨ c.isDigit = true) :
    Kind.ofChar? c = some .number := by
  have hmarks : ['n', 't', 'f', '"', '[', '\x7b'].all
      (fun d => !(d == '-' || d.isDigit)) = true := by
    decide
  have hne : ∀ d ∈ ['n', 't', 'f', '"', '[', '\x7b'], c ≠ d := by
    rintro d hd rfl
    have hd := List.all_eq_true.mp hmarks c hd
    rcases h with rfl | h
    · cases hd
    · simp [h] at hd
  simp only [List.forall_mem_cons] at hne
  simp [Kind.ofChar?, hne, h]

variable {v w : Json} {r s : List Char}

/-- The first character of a compact text tells the kind of the value. -/
theorem exists_head_compact (h : v.HasFiniteNumbers) :
    ∃ c rest, v.compact.toList = c :: rest ∧ Kind.ofChar? c = some v.kind := by
  cases v with
  | null => exact ⟨_, _, rfl, rfl⟩
  | bool b => cases b <;> exact ⟨_, _, rfl, rfl⟩
  | num n =>
    obtain ⟨c, rest, htext, hc, -⟩ := Code.exists_of_isNumeral (isNumeral_text h)
    exact ⟨c, rest, htext, Kind.ofChar?_number hc⟩
  | str s => exact ⟨_, _, Code.toList_quote s, rfl⟩
  | arr items =>
    refine ⟨'[', (compactItems items ++ "]").toList, ?_, rfl⟩
    rw [compact, String.append_assoc, String.toList_append]
    rfl
  | obj entries =>
    refine ⟨'\x7b', (compactEntries entries ++ "\x7d").toList, ?_, rfl⟩
    rw [compact, String.append_assoc, String.toList_append]
    rfl

theorem kind_eq_of_append_eq (hv : v.HasFiniteNumbers) (hw : w.HasFiniteNumbers)
    (h : v.compact.toList ++ r = w.compact.toList ++ s) : v.kind = w.kind := by
  obtain ⟨c, rest, htext, hkind⟩ := exists_head_compact hv
  obtain ⟨c', rest', htext', hkind'⟩ := exists_head_compact hw
  rw [htext, htext'] at h
  have hhead : c = c' := List.head_eq_of_cons_eq h
  rw [hhead, hkind', Option.some.injEq] at hkind
  exact hkind.symm

/-! ## Values in front of more -/

/-- Whether a text cannot go on with a number. -/
def StopsNumber (r : List Char) : Prop :=
  ∀ c ∈ r.head?, Code.isNumeralPart c = false

theorem stopsNumber_cons {c : Char} (h : Code.isNumeralPart c = false) (r : List Char) :
    StopsNumber (c :: r) := by
  rintro d ⟨⟩
  exact h

theorem number_eq_of_append_eq {n m : Number} (hn : n.IsFinite) (hm : m.IsFinite)
    (hr : StopsNumber r) (hs : StopsNumber s) (h : n.text.toList ++ r = m.text.toList ++ s) :
    n = m ∧ r = s := by
  have hpart : ∀ {n : Number}, n.IsFinite → ∀ c ∈ n.text.toList, Code.isNumeralPart c = true := by
    intro n hn
    obtain ⟨c, rest, htext, hc, hrest⟩ := Code.exists_of_isNumeral (isNumeral_text hn)
    rw [htext, List.forall_mem_cons]
    refine ⟨?_, hrest⟩
    rcases hc with rfl | hc
    · decide
    · exact Code.isNumeralPart_of_isDigit hc
  obtain ⟨htake, hdrop⟩ := Text.span_append (hpart hn) hr
  obtain ⟨htake', hdrop'⟩ := Text.span_append (hpart hm) hs
  rw [h, htake'] at htake
  rw [h, hdrop'] at hdrop
  exact ⟨Number.eq_of_text_eq hn hm (String.toList_inj.mp htake.symm), hdrop.symm⟩

theorem string_eq_of_append_eq {a b : String} (h : (quote a).toList ++ r = (quote b).toList ++ s) :
    a = b ∧ r = s := by
  rw [Code.toList_quote, Code.toList_quote, List.append_assoc, List.append_assoc] at h
  -- both are read as their strings, from after the opening quote
  have hread : stringBody (a.toList.flatMap escapeChar ++ '"' :: r) =
      stringBody (b.toList.flatMap escapeChar ++ '"' :: s) :=
    congrArg stringBody (List.tail_eq_of_cons_eq h)
  rw [stringBody_flatMap_escapeChar, stringBody_flatMap_escapeChar, Except.ok.injEq,
    Prod.mk.injEq] at hread
  exact ⟨String.toList_inj.mp hread.1, hread.2⟩

section Rest

variable {α : Type} {text : List α → String} {closing : Char} {rest rest' : List α}

/-- What stands behind the first item of a list or the first entry of an object. -/
def textBehind (text : List α → String) (closing : Char) (r : List Char) : List α → List Char
  | [] => closing :: r
  | a :: rest => ',' :: ((text (a :: rest)).toList ++ closing :: r)

theorem stopsNumber_textBehind (h : Code.isNumeralPart closing = false) (r : List Char)
    (rest : List α) : StopsNumber (textBehind text closing r rest) := by
  cases rest with
  | nil => exact stopsNumber_cons h r
  | cons _ _ => exact stopsNumber_cons (by decide) _

theorem eq_of_textBehind_eq (hclosing : closing ≠ ',')
    (ih : (text rest).toList ++ closing :: r = (text rest').toList ++ closing :: s →
      rest = rest' ∧ r = s)
    (h : textBehind text closing r rest = textBehind text closing s rest') :
    rest = rest' ∧ r = s := by
  cases rest with
  | nil =>
    cases rest' with
    | nil => exact ⟨rfl, List.tail_eq_of_cons_eq h⟩
    | cons _ _ => exact absurd (List.head_eq_of_cons_eq h) hclosing
  | cons _ _ =>
    cases rest' with
    | nil => exact absurd (List.head_eq_of_cons_eq h).symm hclosing
    | cons _ _ => exact ih (List.tail_eq_of_cons_eq h)

end Rest

theorem compactItems_cons_append (v : Json) (rest : List Json) (r : List Char) :
    (compactItems (v :: rest)).toList ++ ']' :: r =
      v.compact.toList ++ textBehind compactItems ']' r rest := by
  cases rest with
  | nil => rfl
  | cons w rest =>
    rw [compactItems, String.toList_append, String.toList_append, List.append_assoc,
      List.append_assoc]
    · rfl
    · exact List.cons_ne_nil w rest

theorem compactEntries_cons_append (key : String) (v : Json) (rest : List (String × Json))
    (r : List Char) :
    (compactEntries ((key, v) :: rest)).toList ++ '\x7d' :: r =
      (quote key).toList ++
        ':' :: (v.compact.toList ++ textBehind compactEntries '\x7d' r rest) := by
  cases rest with
  | nil =>
    rw [compactEntries, String.toList_append, String.toList_append, List.append_assoc,
      List.append_assoc]
    rfl
  | cons e rest =>
    rw [compactEntries, String.toList_append, String.toList_append, String.toList_append,
      String.toList_append, List.append_assoc, List.append_assoc, List.append_assoc,
      List.append_assoc]
    · rfl
    · exact List.cons_ne_nil e rest

/-- No value begins with what closes a list. -/
theorem compact_append_ne_closing (h : v.HasFiniteNumbers) : v.compact.toList ++ r ≠ ']' :: s := by
  obtain ⟨c, rest, htext, hkind⟩ := exists_head_compact h
  rw [htext]
  intro heq
  rw [List.head_eq_of_cons_eq heq, show Kind.ofChar? ']' = none by decide] at hkind
  cases hkind

/-- No key begins with what closes an object. -/
theorem quote_append_ne_closing (key : String) : (quote key).toList ++ r ≠ '\x7d' :: s := by
  rw [Code.toList_quote]
  intro heq
  exact absurd (List.head_eq_of_cons_eq heq) (by decide)

mutual

/-- The text of a value ends where it must. -/
theorem eq_of_compact_append_eq : ∀ v : Json, v.HasFiniteNumbers → ∀ {w : Json} {r s : List Char},
    w.HasFiniteNumbers → StopsNumber r → StopsNumber s →
      v.compact.toList ++ r = w.compact.toList ++ s → v = w ∧ r = s
  | .null => by
    intro hv w r s hw _ _ h
    have hkind := kind_eq_of_append_eq hv hw h
    cases w with
    | null => exact ⟨rfl, List.append_cancel_left h⟩
    | _ => cases hkind
  | .bool b => by
    intro hv w r s hw _ _ h
    have hkind := kind_eq_of_append_eq hv hw h
    cases w with
    | bool b' =>
      cases b <;> cases b'
      · exact ⟨rfl, List.append_cancel_left h⟩
      · exact absurd (List.head_eq_of_cons_eq h) (by decide)
      · exact absurd (List.head_eq_of_cons_eq h) (by decide)
      · exact ⟨rfl, List.append_cancel_left h⟩
    | _ => cases hkind
  | .num n => by
    intro hv w r s hw hr hs h
    have hkind := kind_eq_of_append_eq hv hw h
    cases w with
    | num m =>
      obtain ⟨heq, hrest⟩ := number_eq_of_append_eq hv hw hr hs h
      exact ⟨congrArg Json.num heq, hrest⟩
    | _ => cases hkind
  | .str a => by
    intro hv w r s hw _ _ h
    have hkind := kind_eq_of_append_eq hv hw h
    cases w with
    | str b =>
      obtain ⟨heq, hrest⟩ := string_eq_of_append_eq h
      exact ⟨congrArg Json.str heq, hrest⟩
    | _ => cases hkind
  | .arr items => by
    intro hv w r s hw _ _ h
    have hkind := kind_eq_of_append_eq hv hw h
    cases w with
    | arr items' =>
      simp only [compact, String.toList_append, List.append_assoc] at h
      obtain ⟨heq, hrest⟩ :=
        eq_of_compactItems_append_eq items hv hw (List.append_cancel_left h)
      exact ⟨congrArg Json.arr heq, hrest⟩
    | _ => cases hkind
  | .obj entries => by
    intro hv w r s hw _ _ h
    have hkind := kind_eq_of_append_eq hv hw h
    cases w with
    | obj entries' =>
      simp only [compact, String.toList_append, List.append_assoc] at h
      obtain ⟨heq, hrest⟩ :=
        eq_of_compactEntries_append_eq entries hv hw (List.append_cancel_left h)
      exact ⟨congrArg Json.obj heq, hrest⟩
    | _ => cases hkind

theorem eq_of_compactItems_append_eq : ∀ items : List Json, ItemsHaveFiniteNumbers items →
    ∀ {items' : List Json} {r s : List Char}, ItemsHaveFiniteNumbers items' →
      (compactItems items).toList ++ ']' :: r = (compactItems items').toList ++ ']' :: s →
        items = items' ∧ r = s
  | [] => by
    intro _ items' r s hw h
    cases items' with
    | nil => exact ⟨rfl, List.tail_eq_of_cons_eq h⟩
    | cons w rest' =>
      rw [compactItems_cons_append] at h
      exact absurd h.symm (compact_append_ne_closing hw.1)
  | v :: rest => by
    intro hv items' r s hw h
    rw [compactItems_cons_append] at h
    cases items' with
    | nil => exact absurd h (compact_append_ne_closing hv.1)
    | cons w rest' =>
      rw [compactItems_cons_append] at h
      obtain ⟨hfirst, hbehind⟩ := eq_of_compact_append_eq v hv.1 hw.1
        (stopsNumber_textBehind (by decide) r rest) (stopsNumber_textBehind (by decide) s rest') h
      obtain ⟨hrest, hr⟩ := eq_of_textBehind_eq (by decide)
        (eq_of_compactItems_append_eq rest hv.2 hw.2) hbehind
      exact ⟨by rw [hfirst, hrest], hr⟩

theorem eq_of_compactEntries_append_eq : ∀ entries : List (String × Json),
    EntriesHaveFiniteNumbers entries → ∀ {entries' : List (String × Json)} {r s : List Char},
      EntriesHaveFiniteNumbers entries' →
        (compactEntries entries).toList ++ '\x7d' :: r =
            (compactEntries entries').toList ++ '\x7d' :: s →
          entries = entries' ∧ r = s
  | [] => by
    intro _ entries' r s _ h
    cases entries' with
    | nil => exact ⟨rfl, List.tail_eq_of_cons_eq h⟩
    | cons e rest' =>
      rw [compactEntries_cons_append] at h
      exact absurd h.symm (quote_append_ne_closing e.1)
  | (key, v) :: rest => by
    intro hv entries' r s hw h
    rw [compactEntries_cons_append] at h
    cases entries' with
    | nil => exact absurd h (quote_append_ne_closing key)
    | cons e rest' =>
      rw [compactEntries_cons_append] at h
      obtain ⟨hkey, hvalue⟩ := string_eq_of_append_eq h
      obtain ⟨hfirst, hbehind⟩ := eq_of_compact_append_eq v hv.1 hw.1
        (stopsNumber_textBehind (by decide) r rest) (stopsNumber_textBehind (by decide) s rest')
        (List.tail_eq_of_cons_eq hvalue)
      obtain ⟨hrest, hr⟩ := eq_of_textBehind_eq (by decide)
        (eq_of_compactEntries_append_eq rest hv.2 hw.2) hbehind
      exact ⟨by rw [hkey, hfirst, hrest], hr⟩

end

/-- **Injectivity.** Different values with finite numbers have different compact texts. -/
theorem eq_of_compact_eq (hv : v.HasFiniteNumbers) (hw : w.HasFiniteNumbers)
    (h : v.compact = w.compact) : v = w := by
  have hend : StopsNumber [] := by
    rintro c ⟨⟩
  have happend : v.compact.toList ++ [] = w.compact.toList ++ [] := by
    rw [h]
  exact (eq_of_compact_append_eq v hv hw hend hend happend).1

end OpenApiClient.Json
