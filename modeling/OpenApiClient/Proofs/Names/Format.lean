import OpenApiClient.Client.NameSupply
import OpenApiClient.Proofs.Names.Words

/-!
# Formatted names

What a naming style does to a name that a part is added to. A part that is a run becomes a new last
word, so the formatted name grows by that word in the manner of the style (`assemble_concat`). For
the base of an operation, which begins with a method, nothing has to be put in front
(`format_of_isOperationBase`).
-/

namespace OpenApiClient

namespace NameStyle

/-- How a style writes a word after others. -/
def further : NameStyle → List Char → List Char
  | camel, word => capitalize word
  | snake, word => '_' :: lower word
  | pascal, word => capitalize word

/-- A further word stands at the end, whatever the words before it are. -/
theorem assemble_concat (style : NameStyle) {ws : List (List Char)} (h : ws ≠ [])
    (word : List Char) :
    style.assemble (ws ++ [word]) = style.assemble ws ++ style.further word := by
  cases style with
  | camel =>
    cases ws with
    | nil => exact absurd rfl h
    | cons w ws => simp [assemble, further]
  | snake => simp [assemble, further, Text.join_concat, h]
  | pascal => simp [assemble, further]

/-- The last letter of a further word is kept by every style. -/
theorem getLast?_further (style : NameStyle) {c d : Char} {word : List Char}
    (h : lower (c :: d :: word) = c :: d :: word) :
    (style.further (c :: d :: word)).getLast? = (d :: word).getLast? := by
  cases style <;> simp [further, capitalize, h]

/-! ## Numbers -/

theorem toUpper_of_isDigit {c : Char} (h : c.isDigit = true) : c.toUpper = c := by
  have hle : c.toNat ≤ 57 := (Char.isDigit_iff_toNat.mp h).2
  have hnot : ¬('a'.val ≤ c.val ∧ c.val ≤ 'z'.val) := by
    rintro ⟨ha, -⟩
    have ha : 97 ≤ c.toNat := UInt32.le_iff_toNat_le.mp ha
    omega
  exact dif_neg hnot

theorem toLower_of_isDigit {c : Char} (h : c.isDigit = true) : c.toLower = c := by
  have hle : c.toNat ≤ 57 := (Char.isDigit_iff_toNat.mp h).2
  have hnot : ¬(c.val ≥ 'A'.val ∧ c.val ≤ 'Z'.val) := by
    rintro ⟨ha, -⟩
    have ha : 65 ≤ c.toNat := UInt32.le_iff_toNat_le.mp ha
    omega
  exact dif_neg hnot

theorem lower_digits {ds : List Char} (h : ∀ c ∈ ds, c.isDigit = true) : lower ds = ds := by
  have hid : ds.map Char.toLower = ds.map id :=
    List.map_congr_left fun c hc => toLower_of_isDigit (h c hc)
  rw [lower, hid, List.map_id]

theorem capitalize_digits {ds : List Char} (h : ∀ c ∈ ds, c.isDigit = true) :
    capitalize ds = ds := by
  cases ds with
  | nil => rfl
  | cons c rest => rw [capitalize, toUpper_of_isDigit (h c List.mem_cons_self)]

/-- A number after other words is written as it is, behind the separator of the style. -/
theorem exists_further_digits (style : NameStyle) :
    ∃ sep, ∀ ds : List Char, (∀ c ∈ ds, c.isDigit = true) → style.further ds = sep ++ ds := by
  cases style with
  | camel => exact ⟨[], fun ds h => capitalize_digits h⟩
  | snake => exact ⟨['_'], fun ds h => by rw [further, lower_digits h]; rfl⟩
  | pascal => exact ⟨[], fun ds h => capitalize_digits h⟩

/-- A number alone is written as it is. -/
theorem assemble_digits (style : NameStyle) {ds : List Char} (h : ∀ c ∈ ds, c.isDigit = true) :
    style.assemble [ds] = ds := by
  cases style <;> simp [assemble, Text.join, lower_digits h, capitalize_digits h]

/-- What is put in front of a text that ends in digits depends only on what is before them. -/
theorem exists_guardStart_append (start : List Char) :
    ∃ pre, ∀ ds : List Char, ds ≠ [] → (∀ c ∈ ds, c.isDigit = true) →
      guardStart (start ++ ds) = pre ++ ds := by
  cases start with
  | nil =>
    refine ⟨['_'], fun ds hne hds => ?_⟩
    cases ds with
    | nil => exact absurd rfl hne
    | cons c rest => simp [guardStart, hds c List.mem_cons_self]
  | cons c start =>
    refine ⟨guardStart (c :: start), fun ds _ _ => ?_⟩
    simp only [guardStart, List.cons_append]
    split <;> rfl

/-- The formatted name of a numbered base is a fixed text with the digits of the number after it. -/
theorem exists_format_numbered (style : NameStyle) (base : String) :
    ∃ pre : List Char, ∀ n : Nat,
      (style.format (NameSupply.numbered base n)).toList = pre ++ (toString n).toList := by
  have hwords (n : Nat) : Text.words (NameSupply.numbered base n).toList =
      Text.words base.toList ++ [(toString n).toList] :=
    Text.words_append_run base (toString n) (Text.isRun_toString n)
  by_cases hbase : Text.words base.toList = []
  · -- nothing of the base is left, and the number would be the start of an identifier
    obtain ⟨pre, hpre⟩ := exists_guardStart_append []
    refine ⟨pre, fun n => ?_⟩
    rw [format, String.toList_ofList, hwords, hbase, List.nil_append,
      assemble_digits style fun _ => Text.isDigit_of_mem_toString]
    exact hpre _ (Text.isRun_toString n).1 fun _ => Text.isDigit_of_mem_toString
  · obtain ⟨sep, hsep⟩ := exists_further_digits style
    obtain ⟨pre, hpre⟩ := exists_guardStart_append (style.assemble (Text.words base.toList) ++ sep)
    refine ⟨pre, fun n => ?_⟩
    rw [format, String.toList_ofList, hwords, assemble_concat style hbase,
      hsep _ fun _ => Text.isDigit_of_mem_toString, ← List.append_assoc]
    exact hpre _ (Text.isRun_toString n).1 fun _ => Text.isDigit_of_mem_toString

/-- Different numbers give different names. -/
theorem format_numbered_injective (style : NameStyle) (base : String) :
    Function.Injective fun n => style.format (NameSupply.numbered base n) := by
  intro m n h
  obtain ⟨pre, hpre⟩ := exists_format_numbered style base
  have hdigits : (toString m).toList = (toString n).toList := by
    have happend : pre ++ (toString m).toList = pre ++ (toString n).toList := by
      rw [← hpre, ← hpre]
      exact congrArg String.toList h
    exact List.append_cancel_left happend
  exact Text.eq_of_toString_eq (String.toList_inj.mp hdigits)

end NameStyle

/-! ## Bases of operations -/

/-- The name of a method is the first word of a base, by itself. -/
def IsOperationBase (base : String) : Prop :=
  ∃ (m : Method) (ws : List (List Char)), Text.words base.toList = m.name.toList :: ws

theorem isOperationBase_nameBase (m : Method) (path : String) :
    IsOperationBase (nameBase m path) :=
  ⟨m, _, words_nameBase m path⟩

theorem IsOperationBase.append_run {base : String} (h : IsOperationBase base) {run : String}
    (hrun : Text.IsRun run.toList) : IsOperationBase (base ++ "_" ++ run) := by
  obtain ⟨m, ws, hws⟩ := h
  refine ⟨m, ws ++ [run.toList], ?_⟩
  rw [Text.words_append_run base run hrun, hws]
  rfl

theorem IsOperationBase.numbered {base : String} (h : IsOperationBase base) (n : Nat) :
    IsOperationBase (NameSupply.numbered base n) :=
  h.append_run (Text.isRun_toString n)

namespace NameStyle

variable {base base' : String}

/-- A name that begins with a method is an identifier as it is. -/
theorem guardStart_method (style : NameStyle) (m : Method) (ws : List (List Char)) :
    guardStart (style.assemble (m.name.toList :: ws)) = style.assemble (m.name.toList :: ws) := by
  cases style with
  | camel => cases m <;> rfl
  | snake => cases m <;> cases ws <;> rfl
  | pascal => cases m <;> rfl

theorem format_of_isOperationBase (style : NameStyle) (h : IsOperationBase base) :
    (style.format base).toList = style.assemble (Text.words base.toList) := by
  obtain ⟨m, ws, hws⟩ := h
  rw [format, String.toList_ofList, hws, guardStart_method]

/-- A run that is added to a base stands at the end of the formatted name. -/
theorem format_append_run (style : NameStyle) (h : IsOperationBase base) {run : String}
    (hrun : Text.IsRun run.toList) :
    (style.format (base ++ "_" ++ run)).toList =
      style.assemble (Text.words base.toList) ++ style.further run.toList := by
  obtain ⟨m, ws, hws⟩ := h
  have hwords := Text.words_append_run base run hrun
  rw [format, String.toList_ofList, hwords, hws, List.cons_append, guardStart_method,
    ← List.cons_append]
  exact assemble_concat style (by simp) run.toList

end NameStyle

end OpenApiClient
