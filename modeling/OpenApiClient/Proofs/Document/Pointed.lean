import OpenApiClient.Document.Source
import OpenApiClient.Proofs.Text.Place

/-!
# Where a syntax error is said to be

A text that is neither JSON nor YAML is refused with the failure of the JSON reader. That reader is
given the text without what surrounds it and counts lines and columns there, but the report looks
them up in the whole text. So the reported place is never behind the failure, and it is the place
of the failure exactly if nothing is left out in front, or if no line feed is left out there and the
failure is not in the first line (`error_place`).
-/

namespace OpenApiClient.Source

open Text (byteLength offsetOf lineStart positionAt)

variable {cs : List Char} {e : Json.SyntaxError}

/-- What is left out in front of the text that the readers are given. -/
def lead (cs : List Char) : List Char :=
  cs.takeWhile (· == '\ufeff') ++ (cs.dropWhile (· == '\ufeff')).takeWhile Text.isBlankChar

theorem exists_trimEnd_append (cs : List Char) : ∃ trail, cs = Text.trimEnd cs ++ trail := by
  refine ⟨(cs.reverse.takeWhile Text.isBlankChar).reverse, ?_⟩
  rw [Text.trimEnd, ← List.reverse_append, List.takeWhile_append_dropWhile, List.reverse_reverse]

/-- A text is what is left out in front, what the readers are given, and what is left out behind. -/
theorem exists_trail (cs : List Char) : ∃ trail, cs = lead cs ++ (strip cs ++ trail) := by
  obtain ⟨trail, htrail⟩ := exists_trimEnd_append (Text.trimStart (cs.dropWhile (· == '\ufeff')))
  refine ⟨trail, ?_⟩
  rw [strip, Text.trim, ← htrail, lead, Text.trimStart, List.append_assoc,
    List.takeWhile_append_dropWhile, List.takeWhile_append_dropWhile]

/-! ## Two places -/

/-- The place of a failure of the JSON reader in the whole text. -/
def errorPlace (cs : List Char) (e : Json.SyntaxError) : Nat :=
  byteLength (lead cs) + offsetOf (strip cs) e.position.line e.position.column

/-- The place that its line and column have in the whole text. -/
def reportedPlace (cs : List Char) (e : Json.SyntaxError) : Nat :=
  offsetOf cs e.position.line e.position.column

/-- The JSON reader fails somewhere in the text that it is given. -/
theorem exists_position_eq (h : Json.read cs = .error e) :
    ∃ bytes ≤ byteLength cs, e.position = positionAt cs bytes := by
  unfold Json.read at h
  split at h
  · cases h
  next f hf =>
    cases h
    exact ⟨byteLength cs - f.unread, Nat.sub_le _ _, rfl⟩

theorem errorPlace_le (h : Json.read (strip cs) = .error e) :
    errorPlace cs e ≤ byteLength cs := by
  obtain ⟨bytes, hbytes, hposition⟩ := exists_position_eq h
  obtain ⟨-, -, hstart⟩ := Text.lineStart_positionAt hbytes
  obtain ⟨trail, htrail⟩ := exists_trail cs
  have hlength := congrArg byteLength htrail
  rw [Text.byteLength_append, Text.byteLength_append] at hlength
  rw [errorPlace, offsetOf, hposition]
  omega

/-- Where the place of a failure and the reported one meet. -/
theorem reportedPlace_spec (h : Json.read (strip cs) = .error e) :
    reportedPlace cs e ≤ errorPlace cs e ∧
      (reportedPlace cs e = errorPlace cs e ↔
        lead cs = [] ∨ '\n' ∉ lead cs ∧ 2 ≤ e.position.line) := by
  obtain ⟨bytes, hbytes, hposition⟩ := exists_position_eq h
  obtain ⟨hline, hcount, -⟩ := Text.lineStart_positionAt hbytes
  rw [← hposition] at hline hcount
  obtain ⟨trail, htrail⟩ := exists_trail cs
  -- what is left out behind changes neither place
  have hbehind : lineStart (strip cs ++ trail) (e.position.line - 1) =
      lineStart (strip cs) (e.position.line - 1) := Text.lineStart_append_of_le hcount trail
  have hcountAll : e.position.line - 1 ≤ (strip cs ++ trail).count '\n' := by
    rw [List.count_append]
    omega
  have hcs : lineStart cs = lineStart (lead cs ++ (strip cs ++ trail)) := by
    rw [← htrail]
  have hle := Text.lineStart_append_le (lead cs) (strip cs ++ trail) (e.position.line - 1)
  rw [reportedPlace, errorPlace, offsetOf, offsetOf, hcs, ← hbehind]
  refine ⟨by omega, ?_⟩
  by_cases hnil : lead cs = []
  · simp [hnil]
  have hpos : 0 < byteLength (lead cs) := by
    rcases hlead : lead cs with _ | ⟨c, rest⟩
    · exact absurd hlead hnil
    · exact Nat.lt_add_right _ c.utf8Size_pos
  by_cases hnewline : '\n' ∈ lead cs
  · have hlt := Text.lineStart_append_lt hnewline hcountAll
    simp only [hnil, hnewline, not_true_eq_false, false_and, or_self, iff_false]
    omega
  · rcases Nat.lt_or_ge 1 e.position.line with hfirst | hfirst
    · obtain ⟨n, hn⟩ : ∃ n, e.position.line - 1 = n + 1 := ⟨e.position.line - 2, by omega⟩
      have heq := Text.lineStart_append_of_not_mem hnewline (strip cs ++ trail) n
      have hsecond : 2 ≤ e.position.line := hfirst
      simp only [hnil, hnewline, not_false_eq_true, hsecond, and_self, or_true, iff_true]
      rw [hn]
      omega
    · -- in the first line both places are counted from the beginning
      have hone : e.position.line - 1 = 0 := by omega
      have hnot : ¬2 ≤ e.position.line := by omega
      simp only [hnil, hnot, and_false, or_self, iff_false, hone, Text.lineStart_zero]
      omega

/-- **Place.** What is neither JSON nor YAML is refused at the line and column of the failure of the
JSON reader, taken in the whole text. -/
theorem error_place (text : String) (hjson : Json.read (strip text.toList) = .error e)
    (hyaml : readYaml? (strip text.toList) = none) :
    read text = .error ⟨e, some ⟨reportedPlace text.toList e, 1⟩⟩ ∧
      reportedPlace text.toList e ≤ min (errorPlace text.toList e) (byteLength text.toList) ∧
      (reportedPlace text.toList e = min (errorPlace text.toList e) (byteLength text.toList) ↔
        lead text.toList = [] ∨ '\n' ∉ lead text.toList ∧ 2 ≤ e.position.line) := by
  obtain ⟨hle, hmeet⟩ := reportedPlace_spec hjson
  have hinside := errorPlace_le hjson
  obtain ⟨bytes, hbytes, hposition⟩ := exists_position_eq hjson
  have hline : 1 ≤ e.position.line := by
    rw [hposition]
    exact (Text.lineStart_positionAt hbytes).1
  rw [Nat.min_eq_left hinside]
  refine ⟨?_, hle, hmeet⟩
  have hspan : Text.spanAt text.toList e.position.line e.position.column =
      some ⟨min (reportedPlace text.toList e) (byteLength text.toList), 1⟩ :=
    Text.spanAt_of_pos hline text.toList e.position.column
  rw [Nat.min_eq_left (Nat.le_trans hle hinside)] at hspan
  rw [read]
  simp only [hjson, hyaml, hspan]

/-- A list that is not closed, in the second line behind a byte order mark and blanks. -/
def openList : String := "\ufeff  \x7b\n\"openapi\": [ \x7d\n"

theorem error_place_second_line :
    Json.read (strip openList.toList) = .error ⟨.expectedValue, ⟨2, 14⟩⟩ ∧
      readYaml? (strip openList.toList) = none ∧
      read openList = .error ⟨⟨.expectedValue, ⟨2, 14⟩⟩, some ⟨20, 1⟩⟩ ∧
      errorPlace openList.toList ⟨.expectedValue, ⟨2, 14⟩⟩ = 20 := by
  have hjson : Json.read (strip openList.toList) = .error ⟨.expectedValue, ⟨2, 14⟩⟩ := by
    decide +kernel
  have hyaml : readYaml? (strip openList.toList) = none := by decide +kernel
  obtain ⟨hread, -, hmeet⟩ := error_place openList hjson hyaml
  have hplace : min (errorPlace openList.toList ⟨.expectedValue, ⟨2, 14⟩⟩)
      (byteLength openList.toList) = 20 := by decide +kernel
  rw [hmeet.mpr (by decide +kernel), hplace] at hread
  exact ⟨hjson, hyaml, hread, by decide +kernel⟩

/-- Not every reported place is that of the failure: two line feeds in front of a text are enough to
report it two bytes too early. -/
theorem error_place_too_early :
    ¬∀ (text : String) (e : SourceError), read text = .error e →
      e.span =
        some ⟨min (errorPlace text.toList e.cause) (byteLength text.toList), 1⟩ := by
  intro h
  have hread : read "\n\n\x7b \"openapi\": [ \x7d" =
      .error ⟨⟨.expectedValue, ⟨1, 16⟩⟩, some ⟨15, 1⟩⟩ := by decide +kernel
  have hspan := h _ _ hread
  revert hspan
  decide +kernel

end OpenApiClient.Source
