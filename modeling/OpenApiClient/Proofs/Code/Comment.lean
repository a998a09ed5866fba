import OpenApiClient.Code.TypeExpr
import OpenApiClient.Proofs.Code.Template
import OpenApiClient.Proofs.Output.Ways
import OpenApiClient.Proofs.Text.Lines

/-!
# Comments are closed at their end

No text closes the comment that it stands in: a comment begins, after its padding, with what opens
it, and what closes it occurs once, at its end (`isComment_writeDoc`).

That a text is guarded piece by piece is no harm as long as no piece can end with a star in front of
one that begins with a slash; `closings_append` says so.
-/

namespace OpenApiClient

namespace Code

/-- How often a text closes a comment. -/
def closings : List Char → Nat
  | [] => 0
  | '*' :: '/' :: rest => closings rest + 1
  | _ :: rest => closings rest

section Closings

variable {c : Char} {cs rest : List Char}

theorem closings_cons_of_ne (h : c ≠ '*') (rest : List Char) :
    closings (c :: rest) = closings rest := by
  rw [closings]
  simp [h]

theorem closings_cons_of_head? (h : rest.head? ≠ some '/') (c : Char) :
    closings (c :: rest) = closings rest := by
  rw [closings]
  rintro after - rfl
  exact h rfl

theorem closings_append (h : cs.getLast? = some '*' → rest.head? ≠ some '/') :
    closings (cs ++ rest) = closings cs + closings rest := by
  -- only the last character of the first text meets the second, so the condition stays the same
  fun_induction closings cs with
  | case1 => simp
  | case2 cs ih =>
    have hcs : cs.getLast? = some '*' → rest.head? ≠ some '/' := by
      intro hlast
      exact h (by simp [List.getLast?_cons, hlast])
    simp only [List.cons_append, closings, ih hcs]
    omega
  | case3 c cs hopen ih =>
    cases cs with
    | nil =>
      by_cases hc : c = '*'
      · subst hc
        simp [closings_cons_of_head? (h rfl), closings]
      · simp [closings_cons_of_ne hc, closings]
    | cons d cs =>
      have hcs : (d :: cs).getLast? = some '*' → rest.head? ≠ some '/' := by
        intro hlast
        exact h (by simpa [List.getLast?_cons_cons] using hlast)
      rw [← ih hcs, List.cons_append, List.cons_append]
      rw [closings]
      rintro after rfl hd
      exact hopen cs rfl (by rw [(List.cons.inj hd).1])

/-- No closing goes across an end that is no star. -/
theorem closings_append_of_getLast? (h : cs.getLast? ≠ some '*') (rest : List Char) :
    closings (cs ++ rest) = closings cs + closings rest :=
  closings_append fun hlast => absurd hlast h

theorem closings_of_not_mem (h : '*' ∉ cs) : closings cs = 0 := by
  induction cs with
  | nil => rfl
  | cons c cs ih =>
    obtain ⟨hc, hcs⟩ := List.ne_and_not_mem_of_not_mem_cons h
    rw [closings_cons_of_ne (Ne.symm hc), ih hcs]

end Closings

/-! ## Guarded texts -/

theorem guardComment_star_slash (rest : List Char) :
    guardComment ('*' :: '/' :: rest) = '*' :: '\\' :: '/' :: guardComment rest :=
  Text.replace_cons_of_some rfl

theorem guardComment_cons {c : Char} {rest : List Char} (h : c = '*' → rest.head? ≠ some '/') :
    guardComment (c :: rest) = c :: guardComment rest := by
  by_cases hc : c = '*'
  · refine Text.replace_cons_of_none ?_
    rcases rest with _ | ⟨d, rest⟩
    · rfl
    · have hd : '/' ≠ d := by
        rintro rfl
        exact h hc rfl
      simp [Text.afterHead?, hd]
  · exact Text.replace_cons_of_ne hc rest

theorem head?_guardComment : ∀ text : List Char, (guardComment text).head? = text.head?
  | [] => by simp [guardComment, Text.replace]
  | c :: rest => by
    by_cases h : c = '*' ∧ rest.head? = some '/'
    · obtain ⟨after, rfl⟩ := List.head?_eq_some_iff.mp h.2
      rw [h.1, guardComment_star_slash]
      rfl
    · rw [guardComment_cons (not_and.mp h)]
      rfl

theorem closings_guardComment : ∀ text : List Char, closings (guardComment text) = 0
  | [] => by simp [guardComment, Text.replace, closings]
  | c :: rest => by
    by_cases h : c = '*' ∧ rest.head? = some '/'
    · obtain ⟨after, rfl⟩ := List.head?_eq_some_iff.mp h.2
      have ih := closings_guardComment after
      rw [h.1, guardComment_star_slash, closings_cons_of_head? (by simp),
        closings_cons_of_ne (by decide), closings_cons_of_ne (by decide), ih]
    · have ih := closings_guardComment rest
      rw [guardComment_cons (not_and.mp h)]
      by_cases hc : c = '*'
      · -- the guarded rest begins as the rest does
        have hrest := not_and.mp h hc
        rw [closings_cons_of_head? (by rwa [head?_guardComment]), ih]
      · rw [closings_cons_of_ne hc, ih]

theorem mem_guardComment {c : Char} : ∀ {text : List Char},
    c ∈ guardComment text → c ∈ text ∨ c = '\\'
  | [], h => by simp [guardComment, Text.replace] at h
  | d :: rest, h => by
    by_cases hopen : d = '*' ∧ rest.head? = some '/'
    · obtain ⟨after, rfl⟩ := List.head?_eq_some_iff.mp hopen.2
      rw [hopen.1, guardComment_star_slash] at h
      rcases List.mem_cons.mp h with rfl | h
      · simp [hopen.1]
      rcases List.mem_cons.mp h with rfl | h
      · simp
      rcases List.mem_cons.mp h with rfl | h
      · simp
      rcases mem_guardComment h with h | h
      · simp [h]
      · exact Or.inr h
    · rw [guardComment_cons (not_and.mp hopen)] at h
      rcases List.mem_cons.mp h with rfl | h
      · simp
      rcases mem_guardComment h with h | h
      · exact Or.inl (List.mem_cons_of_mem _ h)
      · exact Or.inr h

theorem newline_not_mem_guardComment {text : List Char} (h : '\n' ∉ text) :
    '\n' ∉ guardComment text := by
  intro hmem
  rcases mem_guardComment hmem with hmem | hmem
  · exact h hmem
  · exact absurd hmem (by decide)

theorem newline_not_mem_docLine {text : List Char} (h : '\n' ∉ text) : '\n' ∉ docLine text := by
  simp [docLine, newline_not_mem_guardComment h]

/-! ## Lines with a margin -/

inductive IsUnit : List Char → Prop
  | standard : IsUnit standardUnit
  | tab : IsUnit tabUnit
  | blanks (width : Nat) : IsUnit (blankUnit width)

/-- What can stand in front of a line without being a part of a comment. -/
def IsMargin (pad : List Char) : Prop :=
  '*' ∉ pad ∧ '\n' ∉ pad

theorem IsMargin.append {pad more : List Char} (hpad : IsMargin pad) (hmore : IsMargin more) :
    IsMargin (pad ++ more) := by
  constructor
  · simp [hpad.1, hmore.1]
  · simp [hpad.2, hmore.2]

theorem IsUnit.isMargin {unit : List Char} (h : IsUnit unit) : IsMargin unit := by
  cases h with
  | standard => exact ⟨by decide, by decide⟩
  | tab => exact ⟨by decide, by decide⟩
  | blanks width => constructor <;> simp [blankUnit, List.mem_replicate]

theorem IsUnit.isMargin_padding {unit : List Char} (h : IsUnit unit) (depth : Nat) :
    IsMargin (padding unit depth) := by
  have hunit := h.isMargin
  constructor
  · intro hmem
    obtain ⟨piece, hpiece, hc⟩ := List.mem_flatten.mp hmem
    rw [List.eq_of_mem_replicate hpiece] at hc
    exact hunit.1 hc
  · intro hmem
    obtain ⟨piece, hpiece, hc⟩ := List.mem_flatten.mp hmem
    rw [List.eq_of_mem_replicate hpiece] at hc
    exact hunit.2 hc

theorem isMargin_margin (depth : Nat) : IsMargin (TypeExpr.margin depth) :=
  IsUnit.standard.isMargin_padding depth

theorem closings_append_margin {pad : List Char} (h : IsMargin pad) (text : List Char) :
    closings (pad ++ text) = closings text := by
  have hlast : pad.getLast? ≠ some '*' := fun hstar => h.1 (List.mem_of_getLast? hstar)
  rw [closings_append_of_getLast? hlast, closings_of_not_mem h.1, Nat.zero_add]

def unlines (ls : List (List Char)) : List Char :=
  ls.flatMap fun line => line ++ ['\n']

/-- Where no line before the last closes a comment, the last one counts. -/
theorem closings_unlines_concat {ls : List (List Char)} (h : ∀ line ∈ ls, closings line = 0)
    (last : List Char) : closings (unlines (ls ++ [last])) = closings last := by
  have hcons (line : List Char) (ls : List (List Char)) :
      closings (unlines (line :: ls)) = closings line + closings (unlines ls) := by
    have hunlines : unlines (line :: ls) = line ++ '\n' :: unlines ls := by simp [unlines]
    rw [hunlines, closings_append fun _ => by simp, closings_cons_of_ne (by decide)]
  induction ls with
  | nil =>
    rw [List.nil_append, hcons]
    rfl
  | cons line ls ih =>
    have hrest : ∀ line ∈ ls, closings line = 0 := fun l hl => h l (List.mem_cons_of_mem _ hl)
    rw [List.cons_append, hcons, h line List.mem_cons_self, ih hrest, Nat.zero_add]

theorem splitOn_unlines {ls : List (List Char)} (h : ∀ line ∈ ls, '\n' ∉ line) :
    Text.splitOn '\n' (unlines ls) = ls ++ [[]] := by
  induction ls with
  | nil => rfl
  | cons line ls ih =>
    have hcons : unlines (line :: ls) = line ++ '\n' :: unlines ls := by simp [unlines]
    have hrest : ∀ line ∈ ls, '\n' ∉ line := fun l hl => h l (List.mem_cons_of_mem _ hl)
    rw [hcons, Text.splitOn_append (h line List.mem_cons_self), ih hrest]
    rfl

theorem writeLines_line {line : List Char} (hne : line ≠ []) (h : '\n' ∉ line)
    (pad : List Char) : writeLines pad line = pad ++ line ++ ['\n'] := by
  rw [writeLines, Text.splitOn_of_not_mem h]
  simp [padLine, hne]

/-- A line feed ends the lines before it. -/
theorem writeLines_append (pad before after : List Char) :
    writeLines pad (before ++ '\n' :: after) = writeLines pad before ++ writeLines pad after := by
  rw [writeLines, Text.splitOn_append_sep, List.flatMap_append]
  rfl

/-! ## Comments -/

/-- The lines of a text between the first and the last; the last line has an end, too. -/
def innerLines (text : List Char) : List (List Char) :=
  (Text.splitOn '\n' text).dropLast.tail.dropLast

/-- A comment behind a padding that nothing closes but its last two characters. -/
structure IsComment (pad text : List Char) : Prop where
  opened : ∃ rest, text = pad ++ "/**".toList ++ rest
  closed : ∃ before, text = before ++ "*/\n".toList
  once : closings text = 1
  starred : ∀ line ∈ innerLines text, ∃ rest, line = pad ++ " *".toList ++ rest

section Comments

variable {pad : List Char}

theorem closings_docLine (text : List Char) : closings (docLine text) = 1 := by
  rw [docLine, List.append_assoc, closings_append_of_getLast? (by decide),
    closings_append fun _ => by decide, closings_guardComment]
  rfl

theorem closings_starredLine (line : List Char) : closings (starredLine line) = 0 := by
  unfold starredLine
  split_ifs
  · rfl
  · rw [closings_append_of_getLast? (by decide), closings_guardComment]
    rfl

theorem newline_not_mem_starredLine {line : List Char} (h : '\n' ∉ line) :
    '\n' ∉ starredLine line := by
  unfold starredLine
  split_ifs
  · decide
  · simp [newline_not_mem_guardComment h]

theorem exists_starredLine (line : List Char) : ∃ rest, starredLine line = " *".toList ++ rest := by
  unfold starredLine
  split_ifs
  · exact ⟨[], rfl⟩
  · exact ⟨' ' :: guardComment line, rfl⟩

/-- A text without line feeds on one line is a comment. -/
theorem isComment_docLine (hpad : IsMargin pad) {text : List Char} (h : '\n' ∉ text) :
    IsComment pad (pad ++ docLine text ++ ['\n']) := by
  have hline : '\n' ∉ pad ++ docLine text := by
    rw [List.mem_append]
    rintro (hmem | hmem)
    · exact hpad.2 hmem
    · exact newline_not_mem_docLine h hmem
  have hlines : pad ++ docLine text ++ ['\n'] = unlines [pad ++ docLine text] := by simp [unlines]
  constructor
  · exact ⟨' ' :: guardComment text ++ " */\n".toList, by simp [docLine]⟩
  · exact ⟨pad ++ "/** ".toList ++ guardComment text ++ [' '], by simp [docLine]⟩
  · rw [hlines, ← List.nil_append [_], closings_unlines_concat (List.forall_mem_nil _),
      closings_append_margin hpad, closings_docLine]
  · -- there is nothing between the first line and the last, which are one
    rw [hlines, innerLines, splitOn_unlines (by simpa using hline)]
    simp

/-- A starred text is a comment. -/
theorem isComment_starred (hpad : IsMargin pad) {ls : List (List Char)}
    (h : ∀ line ∈ ls, '\n' ∉ line) :
    IsComment pad (unlines ((pad ++ "/**".toList) ::
      ls.map (fun line => pad ++ starredLine line) ++ [pad ++ " */".toList])) := by
  have hnewline : ∀ line ∈ (pad ++ "/**".toList) ::
      ls.map (fun line => pad ++ starredLine line) ++ [pad ++ " */".toList], '\n' ∉ line := by
    intro line hline
    simp only [List.cons_append, List.mem_cons, List.mem_append, List.mem_map,
      List.not_mem_nil, or_false] at hline
    rcases hline with rfl | ⟨inner, hinner, rfl⟩ | rfl
    · simp [hpad.2]
    · simp [hpad.2, newline_not_mem_starredLine (h inner hinner)]
    · simp [hpad.2]
  constructor
  · simp [unlines]
  · exact ⟨unlines ((pad ++ "/**".toList) :: ls.map fun line => pad ++ starredLine line) ++
      pad ++ [' '], by simp [unlines]⟩
  · rw [closings_unlines_concat ?_ (pad ++ " */".toList), closings_append_margin hpad]
    · rfl
    · intro line hline
      rcases List.mem_cons.mp hline with rfl | hline
      · exact closings_append_margin hpad _
      · obtain ⟨inner, -, rfl⟩ := List.mem_map.mp hline
        rw [closings_append_margin hpad, closings_starredLine]
  · intro line hline
    rw [innerLines, splitOn_unlines hnewline, List.dropLast_concat, List.cons_append,
      List.tail_cons, List.dropLast_concat, List.mem_map] at hline
    obtain ⟨inner, -, rfl⟩ := hline
    obtain ⟨rest, hrest⟩ := exists_starredLine inner
    exact ⟨rest, by rw [hrest, List.append_assoc]⟩

theorem isComment_writeDoc (hpad : IsMargin pad) (text : List Char) :
    IsComment pad (writeDoc pad text) := by
  simp only [writeDoc, List.length_map]
  split_ifs with hone
  · have htext := Text.newline_not_mem_trim hone
    have hne : docLine (Text.trim text) ≠ [] := by simp [docLine]
    rw [writeLines_line hne (newline_not_mem_docLine htext)]
    exact isComment_docLine hpad htext
  · have hls : ∀ line ∈ (Text.lines text).map Text.trimEnd, '\n' ∉ line := by
      intro line hline hmem
      obtain ⟨whole, hwhole, rfl⟩ := List.mem_map.mp hline
      exact Text.newline_not_mem_of_mem_lines hwhole ((Text.trimEnd_sublist whole).mem hmem)
    have hwritten := isComment_starred hpad hls
    generalize (Text.lines text).map Text.trimEnd = ls at hls hwritten ⊢
    have hinner : (ls.flatMap fun line => writeLines pad (starredLine line)) =
        unlines (ls.map fun line => pad ++ starredLine line) := by
      rw [unlines, List.flatMap_map]
      refine List.flatMap_congr fun line hline => ?_
      obtain ⟨rest, hrest⟩ := exists_starredLine line
      exact writeLines_line (by simp [hrest]) (newline_not_mem_starredLine (hls line hline)) pad
    rw [writeLines_line (by decide) (by decide), writeLines_line (by decide) (by decide), hinner]
    simpa [unlines] using hwritten

end Comments

end Code

end OpenApiClient
