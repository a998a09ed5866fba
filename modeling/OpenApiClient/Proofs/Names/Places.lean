import Mathlib.Data.List.TakeWhile
import OpenApiClient.Client.Plan
import OpenApiClient.Proofs.Names.Supply
import OpenApiClient.Proofs.Noted
import OpenApiClient.Proofs.Text.Lowercase

/-!
# The places of modules

The stem of a module comes from a tag, which can be any text. Two things hold of the stems of a plan
(`placed_modules`). Each is a name for a file or a folder: that of a file is made of lower-case
letters, digits and hyphens, that of a folder has an East Asian character and none that would end
the name (`Proper`). And no two stems are the same where upper and lower case are not told apart:
a tag whose stem is taken gets a numbered one, and numbered stems differ in their numbers
(`stemKey_numbered_injective`).
-/

namespace OpenApiClient

namespace Text

theorem mem_foldl_earlyStep {sep c : Char} : ∀ {cs text : List Char},
    c ∈ cs.foldl (earlyStep sep) text → c ∈ text ∨ isSlugChar c = true ∨ c = sep
  | [], _, h => Or.inl h
  | a :: cs, text, h => by
    have hfold : c ∈ cs.foldl (earlyStep sep) (earlyStep sep text a) := h
    rcases mem_foldl_earlyStep hfold with hstep | hrest
    · unfold earlyStep at hstep
      split_ifs at hstep with ha
      · rcases List.mem_append.mp hstep with htext | hc
        · exact Or.inl htext
        · exact Or.inr (Or.inl (List.mem_singleton.mp hc ▸ ha))
      · rcases List.mem_append.mp hstep with htext | hc
        · exact Or.inl htext
        · exact Or.inr (Or.inr (List.mem_singleton.mp hc))
      · exact Or.inl hstep
    · exact Or.inr hrest

theorem mem_earlySlug {sep c : Char} {cs : List Char} (h : c ∈ earlySlug sep cs) :
    isSlugChar c = true ∨ c = sep := by
  rw [earlySlug, List.mem_reverse] at h
  have hmem := List.mem_reverse.mp ((List.dropWhile_suffix _).subset h)
  rcases mem_foldl_earlyStep hmem with hnil | hc
  · exact absurd hnil List.not_mem_nil
  · exact hc

theorem mem_dropWhile {p : Char → Bool} {c : Char} (hc : p c = false) {cs : List Char}
    (h : c ∈ cs) : c ∈ cs.dropWhile p := by
  rw [← List.takeWhile_append_dropWhile (p := p) (l := cs), List.mem_append] at h
  rcases h with htake | hdrop
  · rw [List.mem_takeWhile_imp htake] at hc
    exact absurd hc (by decide)
  · exact hdrop

/-- Only blank characters are trimmed. -/
theorem mem_trim {c : Char} (hc : isBlankChar c = false) {cs : List Char} (h : c ∈ cs) :
    c ∈ trim cs := by
  have hstart := mem_dropWhile hc h
  rw [trim, trimEnd, List.mem_reverse]
  exact mem_dropWhile hc (List.mem_reverse.mpr hstart)

theorem le_toNat_of_isEastAsian {c : Char} (h : isEastAsian c = true) : 0x3040 ≤ c.toNat := by
  simp only [isEastAsian, Bool.or_eq_true, Bool.and_eq_true, decide_eq_true_eq] at h
  omega

theorem toNat_le_of_isBlankChar {c : Char} (h : isBlankChar c = true) : c.toNat ≤ 0x3000 := by
  simp only [isBlankChar, Bool.or_eq_true, Bool.and_eq_true, decide_eq_true_eq, beq_iff_eq] at h
  omega

end Text

namespace ModulePath

/-! ## Stems -/

/-- Whether a character can stand in the name of a module's file. -/
def isFileChar (c : Char) : Bool :=
  Text.isSlugChar c || c == '-'

/-- What the stem of a module is made of: that of a file has lower-case letters, digits and hyphens,
that of a folder has an East Asian character and no character that cannot stand in it. -/
inductive Proper : ModulePath → Prop
  | file {stem : String} (ne_empty : stem ≠ "")
      (chars : ∀ c ∈ stem.toList, isFileChar c = true) : Proper ⟨stem, false⟩
  | folder {stem : String} (script : Text.hasEastAsian stem = true)
      (chars : ∀ c ∈ stem.toList, isUnsafe c = false) : Proper ⟨stem, true⟩

/-- East Asian characters are kept in names of folders. -/
theorem isUnsafe_of_isEastAsian {c : Char} (h : Text.isEastAsian c = true) :
    isUnsafe c = false := by
  have hge := Text.le_toNat_of_isEastAsian h
  rw [Bool.eq_false_iff]
  intro hforbidden
  rcases Bool.or_eq_true_iff.mp hforbidden with hblank | hmark
  · have hle := Text.toNat_le_of_isBlankChar hblank
    omega
  · have hmarks : ∀ x ∈ ['<', '>', ':', '"', '/', '\\', '|', '?', '*'], x.toNat < 0x80 := by simp
    have hlt := hmarks c (List.contains_iff_mem.mp hmark)
    omega

theorem hasEastAsian_folderStem {tag : String} (h : Text.hasEastAsian tag = true) :
    Text.hasEastAsian (folderStem tag) = true := by
  obtain ⟨c, hc, hscript⟩ := List.any_eq_true.mp h
  have hforbidden := isUnsafe_of_isEastAsian hscript
  have hblank : Text.isBlankChar c = false := (Bool.or_eq_false_iff.mp hforbidden).1
  rw [Text.hasEastAsian, folderStem, String.toList_ofList, List.any_eq_true]
  refine ⟨c, List.mem_map.mpr ⟨c, Text.mem_trim hblank hc, ?_⟩, hscript⟩
  rw [if_neg (by simp [hforbidden])]

theorem isUnsafe_of_mem_folderStem {tag : String} {c : Char} (h : c ∈ (folderStem tag).toList) :
    isUnsafe c = false := by
  rw [folderStem, String.toList_ofList] at h
  obtain ⟨x, -, rfl⟩ := List.mem_map.mp h
  by_cases hx : isUnsafe x = true
  · rw [if_pos hx]
    decide
  · rw [if_neg hx]
    exact Bool.eq_false_iff.mpr hx

theorem proper_fileStem (tag : String) : Proper ⟨fileStem tag, false⟩ := by
  unfold fileStem
  split
  · exact Proper.file (by decide) (List.all_eq_true.mp (by decide))
  · next stem hne =>
    apply Proper.file
    · intro hempty
      exact hne (String.ofList_eq_empty_iff.mp hempty)
    · intro c hc
      rw [String.toList_ofList] at hc
      rcases Text.mem_earlySlug hc with hslug | hsep
      · simp [isFileChar, hslug]
      · simp [isFileChar, hsep]

/-- Every tag has a proper place. -/
theorem proper_ofTag (tag : String) : Proper (ofTag tag) := by
  unfold ofTag
  by_cases h : Text.hasEastAsian tag = true
  · rw [if_pos h]
    exact Proper.folder (hasEastAsian_folderStem h) fun c hc => isUnsafe_of_mem_folderStem hc
  · rw [if_neg h]
    exact proper_fileStem tag

/-- A number is no hindrance to a folder. -/
theorem isUnsafe_of_isDigit {c : Char} (h : c.isDigit = true) : isUnsafe c = false := by
  obtain ⟨hge, hle⟩ := Char.isDigit_iff_toNat.mp h
  rw [Bool.eq_false_iff]
  intro hforbidden
  rcases Bool.or_eq_true_iff.mp hforbidden with hblank | hmark
  · simp only [Text.isBlankChar, Bool.or_eq_true, Bool.and_eq_true, decide_eq_true_eq,
      beq_iff_eq] at hblank
    have : '0'.toNat = 48 := rfl
    have : '9'.toNat = 57 := rfl
    omega
  · have hmarks : ∀ x ∈ ['<', '>', ':', '"', '/', '\\', '|', '?', '*'], x.isDigit = false := by
      simp
    rw [hmarks c (List.contains_iff_mem.mp hmark)] at h
    exact absurd h (by decide)

/-- A numbered place is as proper as the one without the number. -/
theorem Proper.numbered {m : ModulePath} (h : Proper m) (n : Nat) : Proper (m.numbered n) := by
  have hmem {stem sep : String} {c : Char} (hc : c ∈ (stem ++ sep ++ toString n).toList) :
      c ∈ stem.toList ∨ c ∈ sep.toList ∨ c.isDigit = true := by
    rw [String.toList_append, String.toList_append, List.mem_append, List.mem_append] at hc
    rcases hc with (hc | hc) | hc
    · exact Or.inl hc
    · exact Or.inr (Or.inl hc)
    · exact Or.inr (Or.inr (Text.isDigit_of_mem_toString hc))
  cases h with
  | @file stem hne hchars =>
    show Proper ⟨stem ++ "-" ++ toString n, false⟩
    apply Proper.file
    · intro hempty
      have hnil := (String.append_eq_empty_iff.mp (String.append_eq_empty_iff.mp hempty).1).1
      exact hne hnil
    · intro c hc
      rcases hmem hc with hc | hc | hdigit
      · exact hchars c hc
      · rw [List.mem_singleton.mp hc]
        decide
      · simp [isFileChar, Text.isSlugChar, hdigit]
  | @folder stem hscript hchars =>
    show Proper ⟨stem ++ "_" ++ toString n, true⟩
    apply Proper.folder
    · rw [Text.hasEastAsian, String.toList_append, String.toList_append, List.any_append,
        List.any_append, Bool.or_eq_true_iff, Bool.or_eq_true_iff]
      exact Or.inl (Or.inl hscript)
    · intro c hc
      rcases hmem hc with hc | hc | hdigit
      · exact hchars c hc
      · rw [List.mem_singleton.mp hc]
        decide
      · exact isUnsafe_of_isDigit hdigit

def numbering (m : ModulePath) (n : Nat) : String :=
  (if m.nested then "_" else "-") ++ toString n

theorem stem_numbered (m : ModulePath) (n : Nat) :
    (m.numbered n).stem = m.stem ++ m.numbering n :=
  String.append_assoc

theorem toList_numbering (m : ModulePath) (n : Nat) :
    (m.numbering n).toList = (if m.nested then '_' else '-') :: (toString n).toList := by
  rw [numbering, String.toList_append]
  split <;> rfl

theorem isPlain_numbering (m : ModulePath) (n : Nat) :
    Text.isPlain (m.numbering n).toList = true := by
  rw [toList_numbering, Text.isPlain, List.all_eq_true]
  intro c hc
  rcases List.mem_cons.mp hc with rfl | hdigits
  · split <;> decide
  · have hdigit := Text.isDigit_of_mem_toString hdigits
    have hle : c.toNat ≤ 57 := (Char.isDigit_iff_toNat.mp hdigit).2
    have hascii : c.toNat < 0x80 := by omega
    simp [hascii, NameStyle.toLower_of_isDigit hdigit]

end ModulePath

namespace Plan

/-- A number is added to the key of a stem as it is. -/
theorem stemKey_numbered (m : ModulePath) (n : Nat) :
    stemKey (m.numbered n) = stemKey m ++ m.numbering n := by
  rw [stemKey, ModulePath.stem_numbered]
  exact Text.lowercaseString_append m.stem (m.toList_numbering n) (by split <;> decide +kernel)
    (m.isPlain_numbering n)

theorem stemKey_numbered_injective (m : ModulePath) :
    Function.Injective fun n => stemKey (m.numbered n) := by
  intro i j h
  have hkeys : stemKey m ++ m.numbering i = stemKey m ++ m.numbering j := by
    rw [← stemKey_numbered, ← stemKey_numbered]
    exact h
  have hnumbering := (String.append_right_inj _).mp hkeys
  exact Text.eq_of_toString_eq ((String.append_right_inj _).mp hnumbering)

/-! ## Places -/

/-- The place of a tag is proper and was free, and it is taken afterwards. -/
theorem placeOf_spec (tag : String) (taken : List String) :
    (placeOf tag taken).value.1.Proper ∧ stemKey (placeOf tag taken).value.1 ∉ taken ∧
      (placeOf tag taken).value.2 = stemKey (placeOf tag taken).value.1 :: taken := by
  have hproper := ModulePath.proper_ofTag tag
  by_cases h : taken.contains (stemKey (ModulePath.ofTag tag)) = true
  · rw [placeOf, if_pos h]
    exact ⟨hproper.numbered _, freeNumber_not_mem (stemKey_numbered_injective _), rfl⟩
  · rw [placeOf, if_neg h]
    exact ⟨hproper, fun hmem => h (List.contains_iff_mem.mpr hmem), rfl⟩

/-- What holds of modules that got their places one after another, the first of them when the keys
`before` were taken: the places are proper, and their keys are new and differ from each other. -/
structure Placed (before : List String) (ms : List ModulePlan) : Prop where
  proper : ∀ m ∈ ms, m.place.Proper
  fresh : ∀ m ∈ ms, stemKey m.place ∉ before
  distinct : (ms.map fun m => stemKey m.place).Nodup

theorem placed_modulesFrom (functions types : NameStyle) (groups : Groups) (taken : List String)
    (supply : NameSupply) :
    Placed taken (modulesFrom functions types groups taken supply).value := by
  induction groups generalizing taken supply with
  | nil => exact ⟨by simp [modulesFrom], by simp [modulesFrom], by simp [modulesFrom]⟩
  | cons group rest ih =>
    obtain ⟨tag, endpoints⟩ := group
    obtain ⟨hproper, hfree, htaken⟩ := placeOf_spec tag taken
    generalize hplace : (placeOf tag taken).value = place at *
    generalize hnamed : (nameOperations functions types endpoints supply).value = named
    have hvalue : (modulesFrom functions types ((tag, endpoints) :: rest) taken supply).value =
        ⟨tag, place.1, named.1⟩ :: (modulesFrom functions types rest place.2 named.2).value := by
      rw [← hplace, ← hnamed]
      rfl
    have hrest := ih place.2 named.2
    rw [htaken] at hrest
    rw [hvalue, htaken]
    constructor
    case proper =>
      rintro m (_ | ⟨_, hm⟩)
      · exact hproper
      · exact hrest.proper m hm
    case fresh =>
      rintro m (_ | ⟨_, hm⟩)
      · exact hfree
      · exact fun hmem => hrest.fresh m hm (List.mem_cons_of_mem _ hmem)
    case distinct =>
      refine List.nodup_cons.mpr ⟨fun hmem => ?_, hrest.distinct⟩
      obtain ⟨m, hm, hkey⟩ := List.mem_map.mp hmem
      exact hrest.fresh m hm (hkey ▸ List.mem_cons_self)

/-- The places of a plan. -/
theorem placed_modules (c : Config) (groups : Groups) :
    Placed reservedStems (modules c groups).value :=
  placed_modulesFrom _ _ groups reservedStems NameSupply.empty

end Plan

end OpenApiClient
