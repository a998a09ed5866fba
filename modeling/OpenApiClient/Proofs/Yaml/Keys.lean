import OpenApiClient.Proofs.Json.Compact
import OpenApiClient.Proofs.Json.Keys
import OpenApiClient.Yaml.Json

/-!
# Keys that are written alike

A key of a mapping becomes a text. Texts of different raw values differ unless one of the two is a
string, and the text of a double tells which it is. So keys are written alike only if they have the
same raw value, or one of them is read as the string that the other is written as
(`meet_of_keyText_eq`); of different scalars without a tag, one must be that string
(`keyText_eq_iff_of_isScalar`).
-/

namespace OpenApiClient.Yaml.Value

theorem finite_entriesToJson (entries : List (Value × Value))
    (h : ∀ e ∈ entries, (toJson e.2).HasFiniteNumbers) {entered : List (String × Json)}
    (hentered : ∀ e ∈ entered, e.2.HasFiniteNumbers) :
    ∀ e ∈ entriesToJson entered entries, e.2.HasFiniteNumbers := by
  induction entries generalizing entered with
  | nil => exact hentered
  | cons e rest ih =>
    obtain ⟨hv, hrest⟩ := List.forall_mem_cons.mp h
    rw [entriesToJson]
    exact ih hrest (Entries.forall_mem_insert (P := Json.HasFiniteNumbers) hentered _ hv)

mutual

theorem finite_toJson : ∀ v : Value, (toJson v).HasFiniteNumbers
  | .null | .bool _ | .str _ | .int _ => trivial
  | .double d => by
    rw [toJson]
    split_ifs with hfinite
    · exact hfinite
    · trivial
  | .sequence items => finite_itemsToJson items
  | .mapping entries => by
    rw [toJson, Json.HasFiniteNumbers, Json.entriesHaveFiniteNumbers_iff]
    exact finite_entriesToJson entries (finite_toJson_of_mem entries) (List.forall_mem_nil _)
  | .tagged _ v => finite_toJson v

theorem finite_itemsToJson : ∀ items : List Value,
    Json.ItemsHaveFiniteNumbers (itemsToJson items)
  | [] => trivial
  | v :: rest => ⟨finite_toJson v, finite_itemsToJson rest⟩

theorem finite_toJson_of_mem : ∀ entries : List (Value × Value),
    ∀ e ∈ entries, (toJson e.2).HasFiniteNumbers
  | [] => List.forall_mem_nil _
  | (_, v) :: rest => List.forall_mem_cons.mpr ⟨finite_toJson v, finite_toJson_of_mem rest⟩

end

/-! ## Keys that are written alike -/

variable {d d' : Double} {k l : Value} {v w : Json}

theorem doubleKey_of_isFinite (h : d.isFinite = true) : doubleKey d = d.text .key := by
  rw [doubleKey, Double.isNaN_of_isFinite h, h]
  rfl

/-- What is written for a double that is no finite number. -/
theorem doubleKey_mem_of_not_isFinite (h : ¬d.isFinite = true) :
    doubleKey d ∈ [".nan", "-.inf", ".inf"] := by
  rw [doubleKey, if_neg h]
  split_ifs <;> simp

theorem isNumeral_doubleKey_iff :
    Code.isNumeral (doubleKey d).toList = true ↔ d.isFinite = true := by
  constructor
  · intro hnumeral
    by_contra h
    have hmem := doubleKey_mem_of_not_isFinite h
    revert hnumeral
    generalize doubleKey d = text at hmem
    revert text
    decide
  · intro h
    rw [doubleKey_of_isFinite h]
    exact Double.isNumeral_text h Double.Layout.hasUsualSign_key

theorem magnitude_eq_infinite (h : ¬d.isFinite = true) (hnan : ¬d.isNaN = true) :
    d.magnitude = Double.infiniteMagnitude := by
  rw [Double.isFinite, decide_eq_true_eq] at h
  rw [Double.isNaN, decide_eq_true_eq] at hnan
  omega

/-- Among the doubles that are no finite numbers a text tells the sign of an infinity. -/
theorem eq_of_doubleKey_eq_of_not_isFinite (hd : ¬d.isFinite = true) (hd' : ¬d'.isFinite = true)
    (h : doubleKey d = doubleKey d') : d = d' ∨ d.isNaN = true ∧ d'.isNaN = true := by
  rw [doubleKey, doubleKey, if_neg hd, if_neg hd'] at h
  by_cases hnan : d.isNaN = true
  · rw [if_pos hnan] at h
    split_ifs at h with hnan'
    · exact Or.inr ⟨hnan, hnan'⟩
    · exact absurd h (by decide)
    · exact absurd h (by decide)
  · by_cases hnan' : d'.isNaN = true
    · rw [if_neg hnan, if_pos hnan'] at h
      split_ifs at h
      · exact absurd h (by decide)
      · exact absurd h (by decide)
    · rw [if_neg hnan, if_neg hnan'] at h
      have hsign : d.isNegative = d'.isNegative := by
        cases hs : d.isNegative <;> cases hs' : d'.isNegative <;> simp [hs, hs'] at h ⊢
      exact Or.inl (Double.eq_of_isNegative_eq_of_magnitude_eq hsign
        ((magnitude_eq_infinite hd hnan).trans (magnitude_eq_infinite hd' hnan').symm))

/-- Doubles are written alike as keys only if they are equal or both are no numbers. -/
theorem eq_of_doubleKey_eq (h : doubleKey d = doubleKey d') :
    d = d' ∨ d.isNaN = true ∧ d'.isNaN = true := by
  have hfinite : d.isFinite = true ↔ d'.isFinite = true := by
    rw [← isNumeral_doubleKey_iff, h, isNumeral_doubleKey_iff]
  have hkey := Double.Layout.hasUsualSign_key
  by_cases hd : d.isFinite = true
  · have hd' := hfinite.mp hd
    rw [doubleKey_of_isFinite hd, doubleKey_of_isFinite hd'] at h
    exact Or.inl (Double.eq_of_text_eq hd hd' hkey hkey h)
  · exact eq_of_doubleKey_eq_of_not_isFinite hd (mt hfinite.mpr hd) h

theorem exists_head_doubleKey (d : Double) : ∃ c rest, (doubleKey d).toList = c :: rest ∧
    ∀ kind ∈ Json.Kind.ofChar? c, kind = .number := by
  by_cases hd : d.isFinite = true
  · obtain ⟨c, rest, htext, hc, -⟩ := Code.exists_of_isNumeral (isNumeral_doubleKey_iff.mpr hd)
    refine ⟨c, rest, htext, fun kind hkind => ?_⟩
    rw [Json.Kind.ofChar?_number hc] at hkind
    exact (Option.some.inj hkind).symm
  · have hmem := doubleKey_mem_of_not_isFinite hd
    generalize doubleKey d = text at hmem ⊢
    simp only [List.mem_cons, List.not_mem_nil, or_false] at hmem
    rcases hmem with rfl | rfl | rfl
    · exact ⟨'.', _, rfl, by decide⟩
    · exact ⟨'-', _, rfl, by decide⟩
    · exact ⟨'.', _, rfl, by decide⟩

/-- The text of a key is that of its raw value, except for the layout of doubles. -/
theorem keyText_eq_jsonKey (h : ∀ d, k ≠ .double d) : keyText k = jsonKey (toJson k) := by
  cases k with
  | bool b => cases b <;> rfl
  | double d => exact absurd rfl (h d)
  | _ => rfl

-- so a number has two texts as a key, with a tag and without one
example : keyText (.double (Double.ofDecimal 1 20)) = "1e20" ∧
    keyText (.tagged "!n" (.double (Double.ofDecimal 1 20))) = "1e+20" := by decide +kernel

/-- Different raw values are written alike only if one is a string. -/
theorem eq_of_jsonKey_eq (hv : v.HasFiniteNumbers) (hw : w.HasFiniteNumbers)
    (h : jsonKey v = jsonKey w) : v = w ∨ v = .str (jsonKey w) ∨ w = .str (jsonKey v) := by
  by_cases hstring : ∃ s, v = .str s
  · obtain ⟨s, rfl⟩ := hstring
    exact Or.inr (Or.inl (congrArg Json.str h))
  · by_cases hstring' : ∃ s, w = .str s
    · obtain ⟨s, rfl⟩ := hstring'
      exact Or.inr (Or.inr (congrArg Json.str h.symm))
    · rw [jsonKey, jsonKey] at h
      · exact Or.inl (Json.eq_of_compact_eq hv hw h)
      · exact fun s hs => hstring' ⟨s, hs⟩
      · exact fun s hs => hstring ⟨s, hs⟩

theorem exists_number_of_compact_eq (hv : v.HasFiniteNumbers) (h : doubleKey d = v.compact) :
    ∃ n, v = .num n := by
  obtain ⟨c, rest, htext, hnumber⟩ := exists_head_doubleKey d
  obtain ⟨c', rest', htext', hkind⟩ := Json.exists_head_compact hv
  rw [h, htext'] at htext
  rw [List.head_eq_of_cons_eq htext] at hkind
  exact Json.exists_of_kind_number (hnumber _ hkind)

/-- A double is written like a raw value only if that is the double or a string. -/
theorem eq_of_doubleKey_eq_jsonKey (hv : v.HasFiniteNumbers) (h : doubleKey d = jsonKey v) :
    d.isFinite = true ∧ v = .num (.double d) ∨ v = .str (doubleKey d) := by
  by_cases hstring : ∃ s, v = .str s
  · obtain ⟨s, rfl⟩ := hstring
    exact Or.inr (congrArg Json.str h.symm)
  · left
    rw [jsonKey] at h
    · obtain ⟨n, rfl⟩ := exists_number_of_compact_eq hv h
      have hd : d.isFinite = true := by
        rw [← isNumeral_doubleKey_iff, h]
        exact Json.isNumeral_text hv
      rw [doubleKey_of_isFinite hd] at h
      refine ⟨hd, ?_⟩
      cases n with
      | int n => exact absurd h (Double.text_ne_toString hd .key n)
      | double d' =>
        rw [Double.eq_of_text_eq hd hv Double.Layout.hasUsualSign_key
          Double.Layout.hasUsualSign_document h]
    · exact fun s hs => hstring ⟨s, hs⟩

/-- Whether two keys have the same raw value, or the raw value of one is the string that the other
is written as. -/
def Meet (k l : Value) : Prop :=
  toJson k = toJson l ∨ toJson k = .str (keyText l) ∨ toJson l = .str (keyText k)

/-- **Keys.** Only keys that meet are written alike. -/
theorem meet_of_keyText_eq (h : keyText k = keyText l) : Meet k l := by
  by_cases hk : ∃ d, k = .double d
  · obtain ⟨d, rfl⟩ := hk
    by_cases hl : ∃ d', l = .double d'
    · obtain ⟨d', rfl⟩ := hl
      left
      rcases eq_of_doubleKey_eq h with rfl | ⟨hd, hd'⟩
      · rfl
      · rw [toJson, toJson, if_neg (Double.not_isFinite_of_isNaN hd),
          if_neg (Double.not_isFinite_of_isNaN hd')]
    · have hjson := keyText_eq_jsonKey fun d' hd' => hl ⟨d', hd'⟩
      rcases eq_of_doubleKey_eq_jsonKey (finite_toJson l) (h.trans hjson) with ⟨hd, hv⟩ | hv
      · left
        rw [hv, toJson, if_pos hd]
      · exact Or.inr (Or.inr hv)
  · have hjson := keyText_eq_jsonKey fun d hd => hk ⟨d, hd⟩
    by_cases hl : ∃ d', l = .double d'
    · obtain ⟨d', rfl⟩ := hl
      rcases eq_of_doubleKey_eq_jsonKey (finite_toJson k) (h.symm.trans hjson) with ⟨hd, hv⟩ | hv
      · left
        rw [hv, toJson, if_pos hd]
      · exact Or.inr (Or.inl hv)
    · have hjson' := keyText_eq_jsonKey fun d' hd' => hl ⟨d', hd'⟩
      rw [hjson, hjson'] at h
      rw [Meet, hjson, hjson']
      exact eq_of_jsonKey_eq (finite_toJson k) (finite_toJson l) h

/-- Keys that meet are written alike, as far as both have the layout of raw values. -/
theorem keyText_eq_of_meet (hk : ∀ d, k ≠ .double d) (hl : ∀ d, l ≠ .double d) (h : Meet k l) :
    keyText k = keyText l := by
  rcases h with h | h | h
  · rw [keyText_eq_jsonKey hk, keyText_eq_jsonKey hl, h]
  · rw [keyText_eq_jsonKey hk, h, jsonKey]
  · rw [keyText_eq_jsonKey hl, h, jsonKey]

/-! ## Scalars without a tag -/

def isScalar : Value → Bool
  | .sequence _ | .mapping _ | .tagged _ _ => false
  | _ => true

theorem eq_str_of_toJson_eq_str {s : String} (hk : k.isScalar = true) (h : toJson k = .str s) :
    k = .str s := by
  cases k with
  | str s' =>
    cases h
    rfl
  | double d =>
    rw [toJson] at h
    split_ifs at h
  | sequence _ | mapping _ | tagged _ _ => cases hk
  | _ => cases h

/-- A scalar that is written like a double is one or a string. -/
theorem eq_str_of_keyText_eq_doubleKey (hk : k.isScalar = true) (hdouble : ∀ d, k ≠ .double d)
    (h : keyText k = doubleKey d) : k = .str (doubleKey d) := by
  have hjson := h.symm.trans (keyText_eq_jsonKey hdouble)
  rcases eq_of_doubleKey_eq_jsonKey (finite_toJson k) hjson with ⟨-, hv⟩ | hv
  · cases k with
    | double d' => exact absurd rfl (hdouble d')
    | sequence _ | mapping _ | tagged _ _ => cases hk
    | _ => cases hv
  · exact eq_str_of_toJson_eq_str hk hv

/-- Scalars that are no doubles are told apart by their raw values. -/
theorem eq_of_toJson_eq (hk : k.isScalar = true) (hl : l.isScalar = true)
    (hdouble : ∀ d, k ≠ .double d) (hdouble' : ∀ d, l ≠ .double d) (h : toJson k = toJson l) :
    k = l := by
  cases k with
  | double d => exact absurd rfl (hdouble d)
  | sequence _ | mapping _ | tagged _ _ => cases hk
  | _ =>
    cases l with
    | double d => exact absurd rfl (hdouble' d)
    | sequence _ | mapping _ | tagged _ _ => cases hl
    | _ => cases h <;> rfl

theorem same_self (hk : k.isScalar = true) (depth : Nat) : k.same depth k = true := by
  cases k with
  | sequence _ | mapping _ | tagged _ _ => cases hk
  | _ => simp [same, Double.sameNumber]

/-- **Scalars.** Different scalars without a tag are written alike exactly if one is a string and
is the text of the other. -/
theorem keyText_eq_iff_of_isScalar {depth : Nat} (hk : k.isScalar = true) (hl : l.isScalar = true)
    (hsame : k.same depth l = false) :
    keyText k = keyText l ↔ k = .str (keyText l) ∨ l = .str (keyText k) := by
  constructor
  · intro h
    by_cases hdouble : ∃ d, k = .double d
    · obtain ⟨d, rfl⟩ := hdouble
      by_cases hdouble' : ∃ d, l = .double d
      · obtain ⟨d', rfl⟩ := hdouble'
        rcases eq_of_doubleKey_eq h with rfl | ⟨hnan, hnan'⟩
        · simp [same, Double.sameNumber] at hsame
        · simp [same, Double.sameNumber, hnan, hnan'] at hsame
      · exact Or.inr (eq_str_of_keyText_eq_doubleKey hl (fun d' hd' => hdouble' ⟨d', hd'⟩) h.symm)
    · have hnot : ∀ d, k ≠ .double d := fun d hd => hdouble ⟨d, hd⟩
      by_cases hdouble' : ∃ d, l = .double d
      · obtain ⟨d', rfl⟩ := hdouble'
        exact Or.inl (eq_str_of_keyText_eq_doubleKey hk hnot h)
      · have hnot' : ∀ d, l ≠ .double d := fun d hd => hdouble' ⟨d, hd⟩
        rcases meet_of_keyText_eq h with heq | heq | heq
        · rw [eq_of_toJson_eq hk hl hnot hnot' heq, same_self hl] at hsame
          cases hsame
        · exact Or.inl (eq_str_of_toJson_eq_str hk heq)
        · exact Or.inr (eq_str_of_toJson_eq_str hl heq)
  · rintro (h | h)
    · rw [h, keyText]
    · rw [h, keyText]

end OpenApiClient.Yaml.Value
