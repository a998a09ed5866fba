import Mathlib.Data.List.Count
import OpenApiClient.Text.Position

/-!
# Places by line and column

The start of a line is found by adding up the lines before it. A position that was counted along a
text leads back to the byte where counting stopped (`lineStart_advance`). In a text with something
put in front, lines start later by the length of what is in front exactly if that is within the
first line; otherwise a line with the same number starts too early (`lineStart_append_lt`).
-/

namespace OpenApiClient.Text

variable {cs lead body : List Char}

/-- The number of bytes in front of the line that has `n` lines before it. -/
def lineStart (cs : List Char) (n : Nat) : Nat :=
  byteLength ((fullLines cs).take n).flatten

/-- The number of bytes in front of a line and a column that both count from one. -/
def offsetOf (cs : List Char) (line column : Nat) : Nat :=
  lineStart cs (line - 1) + (column - 1)

theorem spanAt_of_pos {line : Nat} (h : 1 ≤ line) (cs : List Char) (column : Nat) :
    spanAt cs line column = some ⟨min (offsetOf cs line column) (byteLength cs), 1⟩ :=
  if_neg (Nat.ne_of_gt h)

/-! ## Starts of lines -/

theorem lineStart_zero (cs : List Char) : lineStart cs 0 = 0 := rfl

theorem lineStart_nil (n : Nat) : lineStart [] n = 0 := by
  cases n <;> rfl

/-- A character moves the starts of all lines after the first, and a line feed is one of them. -/
theorem lineStart_cons_succ (c : Char) (rest : List Char) (n : Nat) :
    lineStart (c :: rest) (n + 1) =
      c.utf8Size + lineStart rest (if c = '\n' then n else n + 1) := by
  rw [lineStart, lineStart, fullLines]
  split_ifs with hc
  · rw [List.take_succ_cons, List.flatten_cons, byteLength_append, byteLength_cons,
      byteLength_nil, Nat.add_zero]
  · cases fullLines rest with
    | nil => simp
    | cons line lines => simp

theorem count_newline_cons (c : Char) (rest : List Char) :
    (c :: rest).count '\n' = rest.count '\n' + if c = '\n' then 1 else 0 := by
  rw [List.count_cons]
  simp only [beq_iff_eq]

theorem lineStart_le_succ (cs : List Char) (n : Nat) : lineStart cs n ≤ lineStart cs (n + 1) := by
  induction cs generalizing n with
  | nil => simp [lineStart_nil]
  | cons c rest ih =>
    cases n with
    | zero => exact Nat.zero_le _
    | succ n =>
      rw [lineStart_cons_succ, lineStart_cons_succ]
      split_ifs
      · exact Nat.add_le_add_left (ih n) _
      · exact Nat.add_le_add_left (ih (n + 1)) _

/-- Lines that a line feed ends are not empty. -/
theorem lineStart_lt_succ {n : Nat} (h : n < cs.count '\n') :
    lineStart cs n < lineStart cs (n + 1) := by
  induction cs generalizing n with
  | nil => exact absurd h (Nat.not_lt_zero n)
  | cons c rest ih =>
    rw [lineStart_cons_succ]
    cases n with
    | zero => exact Nat.lt_add_right _ c.utf8Size_pos
    | succ n =>
      rw [lineStart_cons_succ]
      rw [count_newline_cons] at h
      apply Nat.add_lt_add_left
      split_ifs at h ⊢
      · exact ih (by omega)
      · exact ih (by omega)

/-- What follows a line has no say in where it starts. -/
theorem lineStart_append_of_le {n : Nat} (h : n ≤ body.count '\n') (trail : List Char) :
    lineStart (body ++ trail) n = lineStart body n := by
  induction body generalizing n with
  | nil =>
    obtain rfl : n = 0 := Nat.le_zero.mp h
    rfl
  | cons c rest ih =>
    cases n with
    | zero => rfl
    | succ n =>
      rw [List.cons_append, lineStart_cons_succ, lineStart_cons_succ]
      rw [count_newline_cons] at h
      split_ifs at h ⊢
      · rw [ih (by omega)]
      · rw [ih (by omega)]

/-! ## Something in front -/

theorem lineStart_append_of_not_mem (h : '\n' ∉ lead) (body : List Char) (n : Nat) :
    lineStart (lead ++ body) (n + 1) = byteLength lead + lineStart body (n + 1) := by
  induction lead with
  | nil => simp
  | cons c lead ih =>
    rw [List.mem_cons, not_or] at h
    rw [List.cons_append, lineStart_cons_succ, if_neg (Ne.symm h.1), ih h.2, byteLength_cons,
      Nat.add_assoc]

theorem lineStart_append_le (lead body : List Char) (n : Nat) :
    lineStart (lead ++ body) n ≤ byteLength lead + lineStart body n := by
  induction lead generalizing n with
  | nil => simp
  | cons c lead ih =>
    cases n with
    | zero => exact Nat.zero_le _
    | succ n =>
      rw [List.cons_append, lineStart_cons_succ, byteLength_cons, Nat.add_assoc]
      apply Nat.add_le_add_left
      split_ifs
      · exact Nat.le_trans (ih n) (Nat.add_le_add_left (lineStart_le_succ body n) _)
      · exact ih (n + 1)

/-- With a line feed in front, a line that has the same number starts too early. -/
theorem lineStart_append_lt (h : '\n' ∈ lead) {n : Nat} (hn : n ≤ body.count '\n') :
    lineStart (lead ++ body) n < byteLength lead + lineStart body n := by
  induction lead generalizing n with
  | nil => exact absurd h List.not_mem_nil
  | cons c lead ih =>
    have hpos := c.utf8Size_pos
    cases n with
    | zero =>
      rw [lineStart_zero, byteLength_cons]
      omega
    | succ n =>
      rw [List.cons_append, lineStart_cons_succ, byteLength_cons, Nat.add_assoc]
      apply Nat.add_lt_add_left
      split_ifs with hc
      · -- the line before it in the text behind is meant, and it starts earlier
        have hle := lineStart_append_le lead body n
        have hlt : lineStart body n < lineStart body (n + 1) := lineStart_lt_succ (by omega)
        omega
      · have hlead : '\n' ∈ lead := (List.mem_cons.mp h).resolve_left (Ne.symm hc)
        exact ih hlead hn

/-! ## Positions that were counted -/

/-- Going along a text gives a line and a column from which the number of bytes is found again. -/
theorem lineStart_advance {bytes : Nat} (h : bytes ≤ byteLength cs) (p : Position) :
    ∃ n ≤ cs.count '\n', (advance p cs bytes).line = p.line + n ∧
      lineStart cs n + (advance p cs bytes).column = bytes + if n = 0 then p.column else 0 := by
  induction cs generalizing p bytes with
  | nil =>
    obtain rfl : bytes = 0 := Nat.le_zero.mp h
    exact ⟨0, Nat.le_refl 0, rfl, by simp [lineStart_zero, advance]⟩
  | cons c rest ih =>
    rw [byteLength_cons] at h
    rw [advance]
    have hcount := count_newline_cons c rest
    split_ifs with hbytes hc hsize
    · exact ⟨0, Nat.zero_le _, rfl, by simp [lineStart_zero, hbytes]⟩
    · -- a line feed begins the next line
      have hfeed : c.utf8Size = 1 := by rw [hc]; rfl
      have hrest : bytes - 1 ≤ byteLength rest := by omega
      obtain ⟨n, hn, hline, hcolumn⟩ := ih hrest ⟨p.line + 1, 0⟩
      rw [if_pos hc] at hcount
      refine ⟨n + 1, by omega, ?_, ?_⟩
      · rw [hline, Nat.add_assoc, Nat.add_comm 1 n]
      · rw [lineStart_cons_succ, if_pos hc, hfeed, if_neg (Nat.succ_ne_zero n)]
        simp only [ite_self] at hcolumn
        omega
    · have hrest : bytes - c.utf8Size ≤ byteLength rest := by omega
      obtain ⟨n, hn, hline, hcolumn⟩ := ih hrest ⟨p.line, p.column + c.utf8Size⟩
      refine ⟨n, by omega, hline, ?_⟩
      cases n with
      | zero =>
        rw [lineStart_zero] at hcolumn ⊢
        simp only [if_true] at hcolumn ⊢
        omega
      | succ n =>
        rw [lineStart_cons_succ, if_neg hc]
        simp only [Nat.succ_ne_zero, if_false] at hcolumn ⊢
        omega
    · -- the bytes end within the character
      exact ⟨0, Nat.zero_le _, rfl, by simp [lineStart_zero, Nat.add_comm]⟩

theorem lineStart_positionAt {bytes : Nat} (h : bytes ≤ byteLength cs) :
    1 ≤ (positionAt cs bytes).line ∧ (positionAt cs bytes).line - 1 ≤ cs.count '\n' ∧
      lineStart cs ((positionAt cs bytes).line - 1) + (positionAt cs bytes).column = bytes := by
  obtain ⟨n, hn, hline, hcolumn⟩ := lineStart_advance h ⟨1, 0⟩
  have hbefore : (positionAt cs bytes).line - 1 = n := by
    rw [positionAt, hline]
    exact Nat.add_sub_cancel_left 1 n
  simp only [ite_self, Nat.add_zero] at hcolumn
  rw [hbefore]
  refine ⟨?_, hn, hcolumn⟩
  rw [positionAt, hline]
  exact Nat.le_add_right 1 n

end OpenApiClient.Text
