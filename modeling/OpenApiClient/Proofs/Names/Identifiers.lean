import OpenApiClient.Client.ClientFunction
import OpenApiClient.Proofs.Names.Format

/-!
# Identifiers

Every formatted name is a word of letters, digits and underscores that does not begin with a digit
(`isWord_format`). The name of a function begins with a method (`exists_methodHead`), and the only
reserved word that begins so is `delete`. So the names under which functions are declared can be
declared, are not the name of the request function, and differ whenever the formatted names do
(`isDeclarable_safeName`, `safeName_injective`).
-/

namespace OpenApiClient

namespace Text

theorem toNat_lt_of_isAlphanum {c : Char} (h : c.isAlphanum = true) : c.toNat < 128 := by
  rcases Bool.or_eq_true_iff.mp h with halpha | hdigit
  · rcases Bool.or_eq_true_iff.mp halpha with hupper | hlower
    · have hle : c.toNat ≤ 90 := UInt32.le_iff_toNat_le.mp (of_decide_eq_true hupper).2
      omega
    · have hle : c.toNat ≤ 122 :=
        UInt32.le_iff_toNat_le.mp (of_decide_eq_true (Bool.and_eq_true_iff.mp hlower).2)
      omega
  · have hle : c.toNat ≤ 57 := (Char.isDigit_iff_toNat.mp hdigit).2
    omega

/-- Letters and digits are found among the first 128 characters. -/
theorem forall_isAlphanum {p : Char → Prop}
    (h : ∀ n < 128, (Char.ofNat n).isAlphanum = true → p (Char.ofNat n)) {c : Char}
    (hc : c.isAlphanum = true) : p c := by
  have hofNat := h c.toNat (toNat_lt_of_isAlphanum hc)
  rw [Char.ofNat_toNat] at hofNat
  exact hofNat hc

/-- A letter or a digit stays one in upper and in lower case. -/
theorem isAlphanum_casing {c : Char} (h : c.isAlphanum = true) :
    c.toUpper.isAlphanum = true ∧ c.toLower.isAlphanum = true :=
  forall_isAlphanum (p := fun c => c.toUpper.isAlphanum = true ∧ c.toLower.isAlphanum = true)
    (by decide +kernel) h

theorem isLower_toUpper {c : Char} (h : c.isAlphanum = true) : c.toUpper.isLower = false :=
  forall_isAlphanum (p := fun c => c.toUpper.isLower = false) (by decide +kernel) h

theorem ne_nil_of_mem_words {cs w : List Char} (h : w ∈ words cs) : w ≠ [] := by
  fun_induction words cs generalizing w with
  | case1 => exact absurd h List.not_mem_nil
  | case2 a ha =>
    rw [List.mem_singleton.mp h]
    exact List.cons_ne_nil a []
  | case3 a ha b after hword ih =>
    rcases hwords : words (b :: after) with _ | ⟨first, ws⟩
    · rw [hwords, extendFirst, List.mem_singleton] at h
      rw [h]
      exact List.cons_ne_nil a []
    · rw [hwords] at h ih
      rcases List.mem_cons.mp h with rfl | h
      · exact List.cons_ne_nil a first
      · exact ih (List.mem_cons_of_mem first h)
  | case4 a ha b after hword ih =>
    rcases List.mem_cons.mp h with rfl | h
    · exact List.cons_ne_nil a []
    · exact ih h
  | case5 a after ha ih => exact ih h

/-- Words hold letters and digits only. -/
theorem isAlphanum_of_mem_words {cs w : List Char} (hw : w ∈ words cs) {c : Char} (hc : c ∈ w) :
    c.isAlphanum = true := by
  fun_induction words cs generalizing w with
  | case1 => exact absurd hw List.not_mem_nil
  | case2 a ha =>
    rw [List.mem_singleton.mp hw, List.mem_singleton] at hc
    rwa [hc]
  | case3 a ha b after hword ih =>
    -- `a` goes to the front of the first word of what follows
    rcases hwords : words (b :: after) with _ | ⟨first, ws⟩
    · rw [hwords, extendFirst, List.mem_singleton] at hw
      rw [hw, List.mem_singleton] at hc
      rwa [hc]
    · rw [hwords] at hw ih
      rcases List.mem_cons.mp hw with rfl | hw
      · rcases List.mem_cons.mp hc with rfl | hc
        · exact ha
        · exact ih List.mem_cons_self hc
      · exact ih (List.mem_cons_of_mem first hw) hc
  | case4 a ha b after hword ih =>
    rcases List.mem_cons.mp hw with rfl | hw
    · rwa [List.mem_singleton.mp hc]
    · exact ih hw hc
  | case5 a after ha ih => exact ih hw hc

end Text

/-! ## Words of a language -/

namespace Code

def isWordChar (c : Char) : Bool :=
  c.isAlphanum || c == '_'

/-- Whether a text is a letter or an underscore, followed by letters, digits and underscores. -/
def isWord (name : String) : Bool :=
  match name.toList with
  | [] => false
  | c :: rest => (c.isAlpha || c == '_') && rest.all isWordChar

theorem isWordChar_of_isWord {name : String} (h : isWord name = true) {c : Char}
    (hc : c ∈ name.toList) : isWordChar c = true := by
  unfold isWord at h
  split at h
  · exact absurd h (by decide)
  · next first rest hcons =>
    obtain ⟨hfirst, hrest⟩ := Bool.and_eq_true_iff.mp h
    rw [hcons] at hc
    rcases List.mem_cons.mp hc with rfl | hc
    · rw [isWordChar, Char.isAlphanum, Bool.or_right_comm, hfirst, Bool.true_or]
    · exact List.all_eq_true.mp hrest c hc

end Code

namespace NameStyle

open Code (isWordChar isWord)

theorem isAlphanum_of_mem_lower {w : List Char} (h : ∀ c ∈ w, c.isAlphanum = true) :
    ∀ c ∈ lower w, c.isAlphanum = true := by
  intro c hc
  obtain ⟨x, hx, rfl⟩ := List.mem_map.mp hc
  exact (Text.isAlphanum_casing (h x hx)).2

theorem isAlphanum_of_mem_flatMap_capitalize {ws : List (List Char)}
    (h : ∀ w ∈ ws, ∀ c ∈ w, c.isAlphanum = true) :
    ∀ c ∈ ws.flatMap capitalize, c.isAlphanum = true := by
  intro c hc
  obtain ⟨w, hw, hcw⟩ := List.mem_flatMap.mp hc
  cases w with
  | nil => exact absurd hcw List.not_mem_nil
  | cons x rest =>
    rcases List.mem_cons.mp hcw with rfl | hcw
    · exact (Text.isAlphanum_casing (h _ hw x List.mem_cons_self)).1
    · exact h _ hw c (List.mem_cons_of_mem x hcw)

/-- Without a separator words are put together to letters and digits alone. -/
theorem isAlphanum_of_mem_assemble {style : NameStyle} (hstyle : style ≠ snake)
    {ws : List (List Char)} (h : ∀ w ∈ ws, ∀ c ∈ w, c.isAlphanum = true) :
    ∀ c ∈ style.assemble ws, c.isAlphanum = true := by
  cases style with
  | camel =>
    cases ws with
    | nil => exact fun c hc => absurd hc List.not_mem_nil
    | cons w ws =>
      rw [List.forall_mem_cons] at h
      intro c hc
      rcases List.mem_append.mp hc with hc | hc
      · exact isAlphanum_of_mem_lower h.1 c hc
      · exact isAlphanum_of_mem_flatMap_capitalize h.2 c hc
  | snake => exact absurd rfl hstyle
  | pascal => exact isAlphanum_of_mem_flatMap_capitalize h

/-- Words that are put together hold nothing but letters, digits and underscores. -/
theorem isWordChar_of_mem_assemble (style : NameStyle) (ws : List (List Char))
    (h : ∀ w ∈ ws, ∀ c ∈ w, c.isAlphanum = true) :
    ∀ c ∈ style.assemble ws, isWordChar c = true := by
  intro c hc
  by_cases hstyle : style = snake
  · subst hstyle
    rcases Text.mem_join hc with hsep | ⟨piece, hpiece, hcp⟩
    · rw [List.mem_singleton.mp hsep]
      decide
    · obtain ⟨w, hw, rfl⟩ := List.mem_map.mp hpiece
      rw [isWordChar, isAlphanum_of_mem_lower (h w hw) c hcp, Bool.true_or]
  · rw [isWordChar, isAlphanum_of_mem_assemble hstyle h c hc, Bool.true_or]

/-- Every formatted name is a word. -/
theorem isWord_format (style : NameStyle) (s : String) : isWord (style.format s) = true := by
  have hchars := isWordChar_of_mem_assemble style (Text.words s.toList)
    fun _ hw _ hc => Text.isAlphanum_of_mem_words hw hc
  rw [format, isWord, String.toList_ofList]
  rcases hassembled : style.assemble (Text.words s.toList) with _ | ⟨c, rest⟩
  · rfl
  · rw [hassembled] at hchars
    have hrest : rest.all isWordChar = true :=
      List.all_eq_true.mpr fun x hx => hchars x (List.mem_cons_of_mem c hx)
    have hc := hchars c List.mem_cons_self
    by_cases hdigit : c.isDigit = true
    · simp only [guardStart, hdigit, if_true, List.all_cons, hc, hrest]
      rfl
    · have hletter : (c.isAlpha || c == '_') = true := by
        simpa [isWordChar, Char.isAlphanum, hdigit] using hc
      simp only [guardStart, if_neg hdigit, hletter, hrest, Bool.and_self]

/-! ## Names of functions -/

def methodHead (style : NameStyle) (m : Method) : List Char :=
  match style with
  | camel | snake => m.name.toList
  | pascal => capitalize m.name.toList

theorem exists_methodHead (style : NameStyle) {base : String} (h : IsOperationBase base) :
    ∃ m, style.methodHead m <+: (style.format base).toList := by
  obtain ⟨m, ws, hws⟩ := h
  refine ⟨m, ?_⟩
  rw [format_of_isOperationBase style ⟨m, ws, hws⟩, hws]
  have hlower : lower m.name.toList = m.name.toList := by cases m <;> rfl
  cases style with
  | camel =>
    rw [assemble, hlower]
    exact List.prefix_append _ _
  | snake =>
    rw [assemble, List.map_cons, hlower]
    cases ws with
    | nil => exact List.prefix_refl _
    | cons w ws =>
      rw [List.map_cons, Text.join, List.append_assoc]
      · exact List.prefix_append _ _
      · simp
  | pascal => exact List.prefix_append _ _

/-- The only reserved word that begins with a method is one itself. -/
theorem eq_delete_of_isReserved (style : NameStyle) {m : Method} {name : String}
    (h : style.methodHead m <+: name.toList) (hreserved : Code.isReserved name = true) :
    name = "delete" := by
  have hwords : ∀ word ∈ Code.reservedWords, style.methodHead m <+: word.toList →
      word = "delete" := by
    cases style <;> cases m <;> decide
  exact hwords name (List.contains_iff_mem.mp hreserved) h

end NameStyle

namespace Code

variable (style : NameStyle) {base base' : String}

/-- Of the names of functions only that of a deletion without a path has to be changed. -/
theorem safeName_format (h : IsOperationBase base) :
    safeName (style.format base) = style.format base ∧
        isReserved (style.format base) = false ∨
      style.format base = "delete" ∧ safeName (style.format base) = "_delete" := by
  obtain ⟨m, hm⟩ := NameStyle.exists_methodHead style h
  by_cases hreserved : isReserved (style.format base) = true
  · have hdelete := NameStyle.eq_delete_of_isReserved style hm hreserved
    rw [hdelete]
    exact Or.inr ⟨rfl, rfl⟩
  · exact Or.inl ⟨if_neg hreserved, Bool.eq_false_iff.mpr hreserved⟩

/-- What holds of a name under which a client function can be declared. -/
structure IsDeclarable (name : String) : Prop where
  word : isWord name = true
  not_reserved : name ∉ reservedWords
  ne_request : name ≠ "request"

/-- The function of an operation can be declared. -/
theorem isDeclarable_safeName (h : IsOperationBase base) :
    IsDeclarable (safeName (style.format base)) := by
  rcases safeName_format style h with ⟨hsafe, hreserved⟩ | ⟨-, hdelete⟩
  · rw [hsafe]
    constructor
    case word => exact NameStyle.isWord_format style base
    case not_reserved =>
      intro hmem
      rw [isReserved, List.contains_iff_mem.mpr hmem] at hreserved
      exact absurd hreserved (by decide)
    case ne_request =>
      intro hrequest
      obtain ⟨m, hm⟩ := NameStyle.exists_methodHead style h
      rw [hrequest] at hm
      revert hm
      cases style <;> cases m <;> decide
  · rw [hdelete]
    exact ⟨by decide, by decide, by decide⟩

/-- No name of a function begins with an underscore. -/
theorem format_ne_escaped (h : IsOperationBase base) : style.format base ≠ "_delete" := by
  intro heq
  obtain ⟨m, hm⟩ := NameStyle.exists_methodHead style h
  rw [heq] at hm
  revert hm
  cases style <;> cases m <;> decide

/-- Names of functions that differ still do so after a reserved word has been changed. -/
theorem safeName_injective (h : IsOperationBase base) (h' : IsOperationBase base')
    (heq : safeName (style.format base) = safeName (style.format base')) :
    style.format base = style.format base' := by
  rcases safeName_format style h with ⟨hsafe, -⟩ | ⟨hdelete, hsafe⟩
  · rcases safeName_format style h' with ⟨hsafe', -⟩ | ⟨-, hsafe'⟩
    · rwa [hsafe, hsafe'] at heq
    · rw [hsafe, hsafe'] at heq
      exact absurd heq (format_ne_escaped style h)
  · rcases safeName_format style h' with ⟨hsafe', -⟩ | ⟨hdelete', -⟩
    · rw [hsafe, hsafe'] at heq
      exact absurd heq.symm (format_ne_escaped style h')
    · rw [hdelete, hdelete']

end Code

end OpenApiClient
