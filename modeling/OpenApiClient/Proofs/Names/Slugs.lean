import Mathlib.Data.List.DropRight
import OpenApiClient.Document.Normal
import OpenApiClient.Proofs.Output.Paths
import OpenApiClient.Proofs.Text.Runs

/-!
# Slugs

The id that is made for an operation and the stem of a module's file are slugs that are written in
two ways, with separators that come late and with separators that come early. Both walks keep the
runs of what they have passed (`LateFollows.step`, `earlyStep_eq`), so that both slugs are the
maximal runs of the text, joined by the separator (`slugs_joined`). A stem is the stem of itself, as
what is joined is found again (`slugRuns_join`).
-/

namespace OpenApiClient

namespace Text

def endsInRun (cs : List Char) : Bool :=
  cs.getLast?.any isSlugChar

theorem endsInRun_concat (cs : List Char) (c : Char) :
    endsInRun (cs ++ [c]) = isSlugChar c := by
  simp [endsInRun]

section Growing

variable {c : Char} {cs : List Char}

theorem endsInRun_append_separator {sep : Char} (hsep : isSlugChar sep = false)
    (run rest : List Char) : endsInRun (run ++ sep :: rest) = endsInRun rest := by
  rcases List.eq_nil_or_concat' rest with rfl | ⟨rest, last, rfl⟩
  · rw [endsInRun_concat, hsep]
    rfl
  · rw [endsInRun_concat, ← List.cons_append, ← List.append_assoc, endsInRun_concat]

theorem slugRuns_concat_separator (hc : isSlugChar c = false) (cs : List Char) :
    slugRuns (cs ++ [c]) = slugRuns cs := by
  induction cs using runInduction with
  | run run hrun =>
    rw [slugRuns_append_separator hrun hc, slugRuns_run hrun, slugRuns, List.append_nil]
  | separator run sep rest hrun hsep ih =>
    rw [List.append_assoc, List.cons_append, slugRuns_append_separator hrun hsep, ih,
      slugRuns_append_separator hrun hsep]

/-- A slug character goes on with the last run. -/
theorem slugRuns_concat_of_endsInRun (hc : isSlugChar c = true) (h : endsInRun cs = true) :
    ∃ before run,
      slugRuns cs = before ++ [run] ∧ slugRuns (cs ++ [c]) = before ++ [run ++ [c]] := by
  induction cs using runInduction with
  | run run hrun =>
    have hmore : ∀ x ∈ run ++ [c], isSlugChar x = true :=
      List.forall_mem_append.mpr ⟨hrun, by simpa using hc⟩
    have hne : run ≠ [] := by
      rintro rfl
      exact absurd h (by decide)
    refine ⟨[], run, ?_, ?_⟩
    · simp [slugRuns_run hrun, asRun, hne]
    · simp [slugRuns_run hmore, asRun]
  | separator run sep rest hrun hsep ih =>
    rw [endsInRun_append_separator hsep] at h
    obtain ⟨before, last, hrest, hgrown⟩ := ih h
    refine ⟨asRun run ++ before, last, ?_, ?_⟩
    · rw [slugRuns_append_separator hrun hsep, hrest, List.append_assoc]
    · rw [List.append_assoc, List.cons_append, slugRuns_append_separator hrun hsep, hgrown,
        List.append_assoc]

/-- Behind a separator a slug character begins a run. -/
theorem slugRuns_concat_of_not_endsInRun (hc : isSlugChar c = true) (h : endsInRun cs = false) :
    slugRuns (cs ++ [c]) = slugRuns cs ++ [[c]] := by
  induction cs using runInduction with
  | run run hrun =>
    rcases List.eq_nil_or_concat' run with rfl | ⟨run, last, rfl⟩
    · simp [slugRuns, hc]
    · rw [endsInRun_concat, hrun last (by simp)] at h
      exact absurd h (by decide)
  | separator run sep rest hrun hsep ih =>
    rw [endsInRun_append_separator hsep] at h
    rw [List.append_assoc, List.cons_append, slugRuns_append_separator hrun hsep, ih h,
      slugRuns_append_separator hrun hsep, List.append_assoc]

theorem ne_nil_of_mem_slugRuns {run : List Char} (h : run ∈ slugRuns cs) : run ≠ [] := by
  have hasRun : ∀ {begun : List Char}, run ∈ asRun begun → run ≠ [] := by
    intro begun hmem
    unfold asRun at hmem
    split_ifs at hmem with hempty
    · exact absurd hmem List.not_mem_nil
    · rw [List.mem_singleton.mp hmem]
      simpa using hempty
  induction cs using runInduction with
  | run begun hbegun =>
    rw [slugRuns_run hbegun] at h
    exact hasRun h
  | separator begun sep rest hbegun hsep ih =>
    rw [slugRuns_append_separator hbegun hsep] at h
    rcases List.mem_append.mp h with h | h
    · exact hasRun h
    · exact ih h

end Growing

/-- A joined text ends as its last run does. -/
theorem endsInRun_join_slugRuns (sep : List Char) {cs : List Char} (h : slugRuns cs ≠ []) :
    endsInRun (join sep (slugRuns cs)) = true := by
  obtain ⟨before, run, hruns⟩ := (List.eq_nil_or_concat' (slugRuns cs)).resolve_left h
  have hmem : run ∈ slugRuns cs := by simp [hruns]
  have hne := ne_nil_of_mem_slugRuns hmem
  obtain ⟨begun, last, hrun⟩ := (List.eq_nil_or_concat' run).resolve_left hne
  rw [hruns, join_concat, hrun, ← List.append_assoc, endsInRun_concat]
  exact isSlugChar_of_mem_slugRuns hmem (by simp [hrun])

theorem join_slugRuns_ne_nil (sep : List Char) {cs : List Char} (h : slugRuns cs ≠ []) :
    join sep (slugRuns cs) ≠ [] := by
  intro hempty
  have hends := endsInRun_join_slugRuns sep h
  rw [hempty] at hends
  exact absurd hends (by decide)

/-- Joined runs are found again. -/
theorem slugRuns_join {sep : Char} (hsep : isSlugChar sep = false) {runs : List (List Char)}
    (hne : ∀ run ∈ runs, run ≠ []) (hslug : ∀ run ∈ runs, ∀ c ∈ run, isSlugChar c = true) :
    slugRuns (join [sep] runs) = runs := by
  induction runs with
  | nil => rfl
  | cons run runs ih =>
    have hrun := hslug run List.mem_cons_self
    have hasRun : asRun run = [run] := by simp [asRun, hne run List.mem_cons_self]
    have hrest := ih (fun r hr => hne r (List.mem_cons_of_mem run hr))
      (fun r hr => hslug r (List.mem_cons_of_mem run hr))
    cases runs with
    | nil => exact (slugRuns_run hrun).trans hasRun
    | cons next runs =>
      rw [join, List.append_assoc, List.singleton_append, slugRuns_append_separator hrun hsep,
        hasRun, hrest]
      · rfl
      · simp

/-! ## Separators that are written late -/

/-- What has been written when a text has been passed. -/
structure LateFollows (sep : Char) (cs : List Char) (s : Late) : Prop where
  text : s.text = join [sep] (slugRuns cs)
  pending : cs ≠ [] → s.pending = !endsInRun cs

/-- **Step.** The late walk keeps the runs of what it has passed. -/
theorem LateFollows.step {sep : Char} {cs : List Char} {s : Late} (h : LateFollows sep cs s)
    (c : Char) : LateFollows sep (cs ++ [c]) (s.step sep c) := by
  unfold Late.step
  by_cases hc : isSlugChar c = true
  · rw [if_pos hc]
    refine ⟨?_, fun _ => by simp [endsInRun_concat, hc]⟩
    by_cases hin : endsInRun cs = true
    · -- the run goes on, and nothing is pending
      have hne : cs ≠ [] := by
        rintro rfl
        exact absurd hin (by decide)
      obtain ⟨before, run, hruns, hgrown⟩ := slugRuns_concat_of_endsInRun hc hin
      have hpending := h.pending hne
      rw [hin] at hpending
      simp only [h.text, hruns, hgrown, hpending, join_concat, Bool.not_true, Bool.false_and,
        Bool.false_eq_true, if_false, List.append_nil, List.append_assoc]
    · rw [Bool.not_eq_true] at hin
      rw [slugRuns_concat_of_not_endsInRun hc hin, join_concat, ← h.text]
      by_cases hempty : slugRuns cs = []
      · -- the first run of all has no separator in front
        have htext : s.text = [] := by rw [h.text, hempty, join]
        simp [htext, hempty]
      · have hne : cs ≠ [] := by
          rintro rfl
          exact hempty rfl
        have htext : s.text ≠ [] := h.text ▸ join_slugRuns_ne_nil [sep] hempty
        simp [h.pending hne, hin, htext, hempty]
  · rw [if_neg hc]
    rw [Bool.not_eq_true] at hc
    constructor
    · rw [slugRuns_concat_separator hc]
      exact h.text
    · intro _
      rw [endsInRun_concat, hc]
      rfl

theorem lateFollows (sep : Char) (cs : List Char) :
    LateFollows sep cs (cs.foldl (Late.step sep) ⟨[], false⟩) := by
  induction cs using List.reverseRecOn with
  | nil => exact ⟨rfl, fun hne => absurd rfl hne⟩
  | append_singleton cs c ih =>
    rw [List.foldl_concat]
    exact ih.step c

theorem lateSlug_eq (sep : Char) (cs : List Char) : lateSlug sep cs = join [sep] (slugRuns cs) :=
  (lateFollows sep cs).text

/-! ## Separators that are written early -/

/-- The separator behind the last run, if something else has been passed since. -/
def trailing (sep : Char) (cs : List Char) : List Char :=
  if slugRuns cs = [] ∨ endsInRun cs = true then [] else [sep]

section Early

variable {sep : Char} (hsep : isSlugChar sep = false)
include hsep

theorem getLast?_join_slugRuns_ne (cs : List Char) :
    (join [sep] (slugRuns cs)).getLast? ≠ some sep := by
  intro hlast
  have hne : slugRuns cs ≠ [] := by
    intro hempty
    rw [hempty] at hlast
    exact absurd hlast (by simp [join])
  have hends := endsInRun_join_slugRuns [sep] hne
  rw [endsInRun, hlast, Option.any_some, hsep] at hends
  exact absurd hends (by decide)

/-- **Step.** The early walk keeps the runs of what it has passed, with a separator behind them if
one is due. -/
theorem earlyStep_eq (cs : List Char) (c : Char) :
    earlyStep sep (join [sep] (slugRuns cs) ++ trailing sep cs) c =
      join [sep] (slugRuns (cs ++ [c])) ++ trailing sep (cs ++ [c]) := by
  unfold earlyStep trailing
  rw [endsInRun_concat]
  by_cases hc : isSlugChar c = true
  · rw [if_pos hc, if_pos (Or.inr hc), List.append_nil]
    by_cases hin : endsInRun cs = true
    · obtain ⟨before, run, hruns, hgrown⟩ := slugRuns_concat_of_endsInRun hc hin
      rw [if_pos (Or.inr hin), hruns, hgrown, join_concat, join_concat, List.append_nil,
        List.append_assoc _ run]
    · have hgrown := slugRuns_concat_of_not_endsInRun hc (by simpa using hin)
      rw [hgrown, join_concat]
      by_cases hempty : slugRuns cs = []
      · simp [hempty]
      · simp [hempty, hin]
  · rw [if_neg hc, slugRuns_concat_separator (by simpa using hc)]
    by_cases hempty : slugRuns cs = []
    · simp [hempty, join]
    · have hne := join_slugRuns_ne_nil [sep] hempty
      by_cases hin : endsInRun cs = true
      · -- a run ends here, so its separator is due
        have hlast := getLast?_join_slugRuns_ne hsep cs
        simp [hempty, hin, hne, hlast, hc]
      · simp [hempty, hin, hc]

theorem foldl_earlyStep (cs : List Char) :
    cs.foldl (earlyStep sep) [] = join [sep] (slugRuns cs) ++ trailing sep cs := by
  induction cs using List.reverseRecOn with
  | nil => rfl
  | append_singleton cs c ih => rw [List.foldl_concat, ih, earlyStep_eq hsep]

theorem earlySlug_eq (cs : List Char) : earlySlug sep cs = join [sep] (slugRuns cs) := by
  have hkept : (join [sep] (slugRuns cs)).rdropWhile (· == sep) = join [sep] (slugRuns cs) := by
    rw [List.rdropWhile_eq_self_iff]
    intro hne hlast
    apply getLast?_join_slugRuns_ne hsep cs
    rw [List.getLast?_eq_some_getLast hne, eq_of_beq hlast]
  show (cs.foldl (earlyStep sep) []).rdropWhile (· == sep) = _
  rw [foldl_earlyStep hsep]
  unfold trailing
  split_ifs
  · rw [List.append_nil, hkept]
  · rw [List.rdropWhile_concat_pos (· == sep) _ _ (beq_self_eq_true sep), hkept]

end Early

end Text

namespace ModulePath

/-! ## Stems of stems -/

theorem fileStem_eq (tag : String) :
    fileStem tag =
      if Text.slugRuns (Text.lowercase tag.toList) = [] then "group"
      else String.ofList (Text.join ['-'] (Text.slugRuns (Text.lowercase tag.toList))) := by
  rw [fileStem, Text.earlySlug_eq (by decide)]
  split_ifs with hempty
  · rw [hempty]
    rfl
  · have hne := Text.join_slugRuns_ne_nil ['-'] hempty
    split
    · next hnil => exact absurd hnil hne
    · rfl

theorem isFileChar_of_mem_fileStem {tag : String} {c : Char} (h : c ∈ (fileStem tag).toList) :
    isFileChar c = true := by
  cases proper_fileStem tag with
  | file _ chars => exact chars c h

theorem lowercase_fileStem (tag : String) :
    Text.lowercase (fileStem tag).toList = (fileStem tag).toList :=
  Text.lowercaseAfter_of_isPlain [] (isPlain_of_isFileChar fun _ => isFileChar_of_mem_fileStem)

theorem hasEastAsian_fileStem (tag : String) : Text.hasEastAsian (fileStem tag) = false := by
  rw [Text.hasEastAsian, List.any_eq_false]
  intro c hc hscript
  have hge := Text.le_toNat_of_isEastAsian hscript
  have hbounds := toNat_of_isFileChar (isFileChar_of_mem_fileStem hc)
  omega

theorem slugRuns_fileStem {tag : String}
    (h : Text.slugRuns (Text.lowercase tag.toList) ≠ []) :
    Text.slugRuns (fileStem tag).toList = Text.slugRuns (Text.lowercase tag.toList) := by
  rw [fileStem_eq, if_neg h, String.toList_ofList]
  exact Text.slugRuns_join (by decide) (fun _ => Text.ne_nil_of_mem_slugRuns)
    (fun _ hrun _ hc => Text.isSlugChar_of_mem_slugRuns hrun hc)

theorem fileStem_fileStem (tag : String) : fileStem (fileStem tag) = fileStem tag := by
  rw [fileStem_eq (fileStem tag), lowercase_fileStem]
  by_cases h : Text.slugRuns (Text.lowercase tag.toList) = []
  · rw [fileStem_eq tag, if_pos h]
    decide
  · rw [slugRuns_fileStem h, if_neg h, fileStem_eq tag, if_neg h]

/-- The stem of a file names the file again. -/
theorem ofTag_stem {tag : String} (h : Text.hasEastAsian tag = false) :
    ofTag (ofTag tag).stem = ofTag tag := by
  have htag : ofTag tag = ⟨fileStem tag, false⟩ := if_neg (by simp [h])
  rw [htag, ofTag, if_neg (by simp [hasEastAsian_fileStem]), fileStem_fileStem]

end ModulePath

/-- The text that an id is made of: the summary, the description or a fixed word, whichever is the
first that is not empty. -/
def idSource (summary description : String) : String :=
  if summary ≠ "" then summary else if description ≠ "" then description else "operation"

theorem makeId_eq (summary description : String) :
    makeId summary description =
      String.ofList ((Text.join ['_']
        (Text.slugRuns (Text.lowercase (idSource summary description).toList))).take 50) := by
  have hsource : ([summary, description].find? fun s => !s.isEmpty).getD "operation" =
      idSource summary description := by
    unfold idSource
    by_cases hsummary : summary = ""
    · by_cases hdescription : description = ""
      · subst hsummary hdescription
        rfl
      · simp [hsummary, hdescription]
    · simp [hsummary]
  rw [makeId, hsource, Text.lateSlug_eq]
  rfl

/-- **Slugs.** A text has its maximal runs of lower-case letters and digits in one list, and both
ways to write a slug come to these runs with the separator between each two. Joined by underscores
and cut after fifty characters, the runs of the lower-cased text are the id that is made for an
operation. Joined by hyphens, or a fixed word if there are none, they are the stem of the file of a
tag without East Asian characters, and this stem names the same file again. -/
theorem slugs_joined :
    (∀ cs : List Char, ∃! runs, Text.AreRuns cs runs) ∧
    (∀ (sep : Char) (cs : List Char) (runs : List (List Char)), Text.isSlugChar sep = false →
      Text.AreRuns cs runs →
        Text.lateSlug sep cs = Text.join [sep] runs ∧
          Text.earlySlug sep cs = Text.join [sep] runs) ∧
    (∀ (summary description : String) (runs : List (List Char)),
      Text.AreRuns (Text.lowercase (idSource summary description).toList) runs →
        makeId summary description = String.ofList ((Text.join ['_'] runs).take 50)) ∧
    ∀ (tag : String) (runs : List (List Char)), Text.hasEastAsian tag = false →
      Text.AreRuns (Text.lowercase tag.toList) runs →
        ModulePath.ofTag tag =
            ⟨if runs = [] then "group" else String.ofList (Text.join ['-'] runs), false⟩ ∧
          ModulePath.ofTag (ModulePath.ofTag tag).stem = ModulePath.ofTag tag := by
  refine ⟨?_, ?_, ?_, ?_⟩
  · intro cs
    exact ⟨Text.slugRuns cs, Text.areRuns_slugRuns cs, fun _ => Text.areRuns_iff.mp⟩
  · intro sep cs runs hsep hruns
    rw [Text.areRuns_iff.mp hruns]
    exact ⟨Text.lateSlug_eq sep cs, Text.earlySlug_eq hsep cs⟩
  · intro summary description runs hruns
    rw [Text.areRuns_iff.mp hruns]
    exact makeId_eq summary description
  · intro tag runs hscript hruns
    refine ⟨?_, ModulePath.ofTag_stem hscript⟩
    rw [Text.areRuns_iff.mp hruns, ModulePath.ofTag, if_neg (by simp [hscript]),
      ModulePath.fileStem_eq]

/-- A text with separators at both ends and in a row, and with a capital letter whose lower-case
form has a mark of its own. -/
def storeTag : String :=
  "  \u0130D -- Pet Store_2! "

theorem slugs_joined_storeTag :
    Text.isSlugChar '-' = false ∧ Text.hasEastAsian storeTag = false ∧
      Text.AreRuns (Text.lowercase storeTag.toList)
        ["i".toList, "d".toList, "pet".toList, "store".toList, "2".toList] ∧
      Text.lateSlug '-' (Text.lowercase storeTag.toList) = "i-d-pet-store-2".toList ∧
      makeId "" storeTag = "i_d_pet_store_2" ∧
      ModulePath.ofTag storeTag = ⟨"i-d-pet-store-2", false⟩ := by
  have hsep : Text.isSlugChar '-' = false := by decide
  have hscript : Text.hasEastAsian storeTag = false := by decide +kernel
  have hruns : Text.AreRuns (Text.lowercase storeTag.toList)
      ["i".toList, "d".toList, "pet".toList, "store".toList, "2".toList] :=
    Text.areRuns_iff.mpr (by decide +kernel)
  exact ⟨hsep, hscript, hruns, (slugs_joined.2.1 '-' _ _ hsep hruns).1,
    slugs_joined.2.2.1 "" storeTag _ hruns, (slugs_joined.2.2.2 storeTag _ hscript hruns).1⟩

end OpenApiClient
