import OpenApiClient.Proofs.Names.Initials
import OpenApiClient.Proofs.Names.OperationTypes

/-!
# Formatted names that are reserved words

A reserved word is all letters in lower case. A formatted name of two words never is: snake case has
an underscore between them, the other styles a second word that does not begin in lower case. One
word in Pascal case does not begin in lower case either. What is left is one word in camel or snake
case, which is the word in lower case (`format_mem_reservedWords_iff`). The types of an operation
are named by at least two words, so they are never reserved (`typeNames_not_reserved`).
-/

namespace OpenApiClient

namespace Code

/-- Reserved words are letters in lower case, one at least. -/
theorem lowerCase_of_mem_reservedWords {name : String} (h : name ∈ reservedWords) :
    name.toList ≠ [] ∧ ∀ c ∈ name.toList, c.isLower = true := by
  have hall : ∀ word ∈ reservedWords,
      word.toList ≠ [] ∧ word.toList.all Char.isLower = true := by decide +kernel
  obtain ⟨hne, hlower⟩ := hall name h
  exact ⟨hne, List.all_eq_true.mp hlower⟩

end Code

namespace NameStyle

/-- Whether what a style makes of a text is a reserved word: the text has a single word, the style
keeps it in lower case, and there it is reserved. -/
def Reserves (style : NameStyle) (s : String) : Prop :=
  style ≠ pascal ∧
    ∃ word, Text.words s.toList = [word] ∧ String.ofList (lower word) ∈ Code.reservedWords

theorem guardStart_of_isLower {cs : List Char} (h : ∀ c ∈ guardStart cs, c.isLower = true) :
    guardStart cs = cs := by
  cases cs with
  | nil => exact absurd (h '_' List.mem_cons_self) (by decide)
  | cons c rest =>
    by_cases hc : c.isDigit = true
    · rw [guardStart, if_pos hc] at h
      exact absurd (h '_' List.mem_cons_self) (by decide)
    · rw [guardStart, if_neg hc]

/-- A letter in lower case that comes first needs nothing in front of it. -/
theorem guardStart_of_first {cs : List Char} (hne : cs ≠ []) (h : ∀ c ∈ cs, c.isLower = true) :
    guardStart cs = cs := by
  obtain ⟨first, rest, rfl⟩ := List.exists_cons_of_ne_nil hne
  have hfirst : first.isLower = true := h first List.mem_cons_self
  have hnot : ¬first.isDigit = true := by
    intro hdigit
    have hle : first.toNat ≤ 57 := (Char.isDigit_iff_toNat.mp hdigit).2
    have hge : 97 ≤ first.toNat :=
      UInt32.le_iff_toNat_le.mp (of_decide_eq_true (Bool.and_eq_true_iff.mp hfirst).1)
    omega
  rw [guardStart, if_neg hnot]

theorem opensLower_of_first {cs : List Char} (hne : cs ≠ []) (h : ∀ c ∈ cs, c.isLower = true) :
    opensLower cs = true := by
  obtain ⟨first, rest, rfl⟩ := List.exists_cons_of_ne_nil hne
  rw [opensLower, h first List.mem_cons_self, Bool.true_or]

/-- Two words are put together with something between them that is no letter in lower case. -/
theorem exists_not_isLower (style : NameStyle) (w : List Char) {v : List Char}
    (ws : List (List Char)) (hne : v ≠ []) (hv : ∀ c ∈ v, c.isAlphanum = true) :
    ∃ c ∈ style.assemble (w :: v :: ws), c.isLower = false := by
  obtain ⟨first, rest, rfl⟩ := List.exists_cons_of_ne_nil hne
  have hfirst : first.toUpper.isLower = false := Text.isLower_toUpper (hv first List.mem_cons_self)
  cases style with
  | camel => exact ⟨first.toUpper, by simp [assemble, capitalize], hfirst⟩
  | snake => exact ⟨'_', by simp [assemble, Text.join], by decide⟩
  | pascal => exact ⟨first.toUpper, by simp [assemble, capitalize], hfirst⟩

theorem assemble_word {style : NameStyle} (h : style ≠ pascal) (word : List Char) :
    style.assemble [word] = lower word := by
  cases style with
  | camel => simp [assemble]
  | snake => simp [assemble, Text.join]
  | pascal => exact absurd rfl h

/-- A text gives a reserved word exactly if it has one word that is reserved in lower case, unless
the style is Pascal case. -/
theorem format_mem_reservedWords_iff (style : NameStyle) (s : String) :
    style.format s ∈ Code.reservedWords ↔ style.Reserves s := by
  constructor
  · intro h
    obtain ⟨hne, hlower⟩ := Code.lowerCase_of_mem_reservedWords h
    have hopens := opensLower_of_first hne hlower
    -- all letters are in lower case, so there is no underscore in front
    rw [format, String.toList_ofList] at hlower
    have hguard := guardStart_of_isLower hlower
    rw [hguard] at hlower
    rcases hwords : Text.words s.toList with _ | ⟨word, _ | ⟨next, words⟩⟩
    · rw [hwords] at hguard
      cases style <;> exact absurd hguard (by decide)
    · have hstyle : style ≠ pascal := by
        rintro rfl
        rw [opensLower_pascal_format] at hopens
        exact absurd hopens (by decide)
      rw [format, hguard, hwords, assemble_word hstyle] at h
      exact ⟨hstyle, word, hwords, h⟩
    · have hnext : next ∈ Text.words s.toList := by simp [hwords]
      have hletters : ∀ c ∈ next, c.isAlphanum = true := fun c hc =>
        Text.isAlphanum_of_mem_words hnext hc
      obtain ⟨c, hc, hnot⟩ :=
        exists_not_isLower style word words (Text.ne_nil_of_mem_words hnext) hletters
      rw [hwords] at hlower
      rw [hlower c hc] at hnot
      exact absurd hnot (by decide)
  · rintro ⟨hstyle, word, hwords, hreserved⟩
    obtain ⟨hne, hlower⟩ := Code.lowerCase_of_mem_reservedWords hreserved
    rw [String.toList_ofList] at hne hlower
    rwa [format, hwords, assemble_word hstyle, guardStart_of_first hne hlower]

end NameStyle

namespace Names

/-- What is named by a base and a kind has at least two words. -/
theorem not_reserves_append_run {base : String} (h : IsOperationBase base) {run : String}
    (hrun : Text.IsRun run.toList) (style : NameStyle) :
    ¬style.Reserves (base ++ "_" ++ run) := by
  rintro ⟨-, word, hwords, -⟩
  obtain ⟨m, ws, hbase⟩ := h
  rw [Text.words_append_run base run hrun, hbase] at hwords
  simpa using congrArg List.length hwords

theorem typeNames_not_reserved {base : String} (h : IsOperationBase base)
    (functions types : NameStyle) :
    ∀ name ∈ (ofBase base functions types).typeNames, name ∉ Code.reservedWords := by
  have hrun {base run : String} (hbase : IsOperationBase base) (hrun : Text.IsRun run.toList) :
      types.format (base ++ "_" ++ run) ∉ Code.reservedWords :=
    mt (types.format_mem_reservedWords_iff _).mp (not_reserves_append_run hbase hrun types)
  intro name hname
  simp only [typeNames, List.mem_cons, List.not_mem_nil, or_false] at hname
  rcases hname with rfl | rfl | rfl
  · rw [requestType_ofBase]
    exact hrun h isRun_request
  · rw [responseType_ofBase]
    exact hrun h isRun_response
  · rw [dataType_ofBase]
    exact hrun (h.append_run isRun_response) isRun_data

end Names

end OpenApiClient
