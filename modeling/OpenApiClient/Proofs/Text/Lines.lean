import OpenApiClient.Proofs.Names.Words
import OpenApiClient.Text.Blank

/-!
# Lines and pieces of texts

No piece of a text that is split at a character has that character, and so no line has a line feed
(`newline_not_mem_of_mem_lines`). The same holds for a text of one line when it is trimmed
(`newline_not_mem_trim`) and for a text whose blanks are folded
(`newline_not_mem_join_blankSeparated`).
-/

namespace OpenApiClient

namespace Text

variable {sep c : Char} {cs : List Char}

/-- A run of characters ends in front of one that is none of them. -/
theorem span_append {p : Char → Bool} {run rest : List Char} (hrun : ∀ c ∈ run, p c = true)
    (hrest : ∀ c ∈ rest.head?, p c = false) :
    (run ++ rest).takeWhile p = run ∧ (run ++ rest).dropWhile p = rest := by
  have hstop : rest.takeWhile p = [] ∧ rest.dropWhile p = rest := by
    cases rest with
    | nil => simp
    | cons c rest => simp [hrest c rfl]
  constructor
  · rw [List.takeWhile_append_of_pos hrun, hstop.1, List.append_nil]
  · rw [List.dropWhile_append_of_pos hrun, hstop.2]

theorem not_mem_of_mem_splitOn {piece : List Char} (h : piece ∈ splitOn sep cs) : sep ∉ piece := by
  induction cs generalizing piece with
  | nil =>
    rw [splitOn, List.mem_singleton] at h
    simp [h]
  | cons c cs ih =>
    rw [splitOn] at h
    split_ifs at h with hc
    · rcases List.mem_cons.mp h with rfl | h
      · simp
      · exact ih h
    · rcases hpieces : splitOn sep cs with _ | ⟨first, pieces⟩
      · exact absurd hpieces (splitOn_ne_nil sep cs)
      · rw [hpieces] at h ih
        rcases List.mem_cons.mp h with rfl | h
        · have hfirst := ih List.mem_cons_self
          simp [Ne.symm hc, hfirst]
        · exact ih (List.mem_cons_of_mem _ h)

theorem trimEnd_sublist (cs : List Char) : (trimEnd cs).Sublist cs := by
  rw [trimEnd, ← List.reverse_sublist, List.reverse_reverse]
  exact List.dropWhile_sublist _

theorem trim_sublist (cs : List Char) : (trim cs).Sublist cs :=
  (trimEnd_sublist _).trans (List.dropWhile_sublist _)

theorem mem_of_mem_lines {line : List Char} (h : line ∈ lines cs) (hc : c ∈ line) :
    ∃ piece ∈ splitOn '\n' cs, c ∈ piece := by
  rw [lines, List.mem_append, List.mem_map] at h
  rcases h with ⟨piece, hpiece, rfl⟩ | h
  · refine ⟨piece, List.dropLast_subset _ hpiece, ?_⟩
    unfold dropCarriageReturn at hc
    split_ifs at hc
    · exact List.dropLast_subset _ hc
    · exact hc
  · split_ifs at h with hlast
    · simp at h
    · rw [List.mem_singleton] at h
      rcases hpieces : (splitOn '\n' cs).getLast? with _ | last
      · exact absurd (List.getLast?_eq_none_iff.mp hpieces) (splitOn_ne_nil _ _)
      · rw [hpieces, Option.getD_some] at h
        exact ⟨last, List.mem_of_getLast? hpieces, h ▸ hc⟩

theorem newline_not_mem_of_mem_lines {line : List Char} (h : line ∈ lines cs) : '\n' ∉ line := by
  intro hc
  obtain ⟨piece, hpiece, hmem⟩ := mem_of_mem_lines h hc
  exact not_mem_of_mem_splitOn hpiece hmem

theorem trimEnd_concat_blank (hc : isBlankChar c = true) (cs : List Char) :
    trimEnd (cs ++ [c]) = trimEnd cs := by
  simp [trimEnd, hc]

/-- A text of at most one line has no line feed, or one at its end. -/
theorem newline_not_mem_trim (h : (lines cs).length ≤ 1) : '\n' ∉ trim cs := by
  have hjoin := join_splitOn '\n' cs
  have hpieces : ∀ piece ∈ splitOn '\n' cs, '\n' ∉ piece := fun _ => not_mem_of_mem_splitOn
  rcases hsplit : splitOn '\n' cs with _ | ⟨first, _ | ⟨second, pieces⟩⟩
  · exact absurd hsplit (splitOn_ne_nil _ _)
  · rw [hsplit] at hjoin hpieces
    intro hmem
    refine hpieces first List.mem_cons_self ?_
    rw [show first = cs from hjoin]
    exact (trim_sublist cs).mem hmem
  · -- a second piece is the last one, and it is empty
    have hlast : pieces = [] ∧ second = [] := by
      rw [lines, hsplit] at h
      cases pieces with
      | nil =>
        refine ⟨rfl, ?_⟩
        by_contra hne
        simp [hne] at h
      | cons third pieces =>
        simp at h
    obtain ⟨rfl, rfl⟩ := hlast
    rw [hsplit] at hjoin hpieces
    have hcs : cs = first ++ ['\n'] := by simpa [join] using hjoin.symm
    have hfirst := hpieces first List.mem_cons_self
    intro hmem
    rw [hcs, trim, trimStart, List.dropWhile_append] at hmem
    split_ifs at hmem
    · simp [trimEnd, List.dropWhile, isBlankChar] at hmem
    · rw [trimEnd_concat_blank (by decide)] at hmem
      exact hfirst ((trim_sublist first).mem hmem)

/-- The pieces between blank characters are made of all the other characters, in order. -/
theorem flatten_blankSeparated (cs : List Char) :
    (blankSeparated cs).flatten = cs.filter fun c => !isBlankChar c := by
  fun_induction blankSeparated cs with
  | case1 => rfl
  | case2 c rest hc ih => simp [hc, ih]
  | case3 c hc => simp [hc]
  | case4 c hc d rest hd ih => simp [hc, ih]
  | case5 c hc d rest hd hnil ih =>
    rw [hnil] at ih ⊢
    rw [List.filter_cons, ← ih]
    simp [hc]
  | case6 c hc d rest hd first pieces hpieces ih =>
    rw [hpieces] at ih ⊢
    rw [List.filter_cons, ← ih]
    simp [hc]

theorem newline_not_mem_join_blankSeparated (cs : List Char) :
    '\n' ∉ join [' '] (blankSeparated cs) := by
  intro hmem
  rcases mem_join hmem with hmem | ⟨piece, hpiece, hmem⟩
  · simp at hmem
  · have hflat := List.mem_flatten.mpr ⟨piece, hpiece, hmem⟩
    rw [flatten_blankSeparated] at hflat
    exact absurd (List.mem_filter.mp hflat).2 (by decide)

end Text

end OpenApiClient
