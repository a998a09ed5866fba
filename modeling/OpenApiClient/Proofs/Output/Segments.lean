import OpenApiClient.Output.Directory

/-!
# Paths that are made of segments

A path that joins names of files and folders is split into these names again
(`splitString_joinStrings`). A file with such a path lies below the folder that it is written to:
its place has the path of the folder in front of its own (`target_joinStrings`), and every segment
is one step down (`foldl_step`).
-/

namespace OpenApiClient

namespace Text

variable {sep : Char}

theorem splitOn_of_not_mem {cs : List Char} (h : sep ∉ cs) : splitOn sep cs = [cs] := by
  induction cs with
  | nil => rfl
  | cons c cs ih =>
    obtain ⟨hc, hcs⟩ := List.ne_and_not_mem_of_not_mem_cons h
    rw [splitOn, if_neg (Ne.symm hc), ih hcs]

theorem splitOn_eq_splitOn (sep : Char) (cs : List Char) : splitOn sep cs = cs.splitOn sep := by
  induction cs with
  | nil => rfl
  | cons c cs ih =>
    rw [splitOn, List.splitOn_cons_eq_if_modifyHead, ← ih]
    by_cases hc : c = sep
    · simp [hc]
    · rw [if_neg hc, if_neg (by simpa using hc)]
      cases hrest : splitOn sep cs with
      | nil => exact absurd hrest (splitOn_ne_nil sep cs)
      | cons piece pieces => rfl

/-- A separator divides the pieces before it from the pieces after it. -/
theorem splitOn_append_sep (sep : Char) (before after : List Char) :
    splitOn sep (before ++ sep :: after) = splitOn sep before ++ splitOn sep after := by
  induction before with
  | nil =>
    rw [List.nil_append, splitOn.eq_2, if_pos rfl]
    rfl
  | cons c before ih =>
    obtain ⟨piece, pieces, hsplit⟩ := List.exists_cons_of_ne_nil (splitOn_ne_nil sep before)
    by_cases hc : c = sep
    · rw [List.cons_append, splitOn, if_pos hc, ih, splitOn, if_pos hc, List.cons_append]
    · rw [List.cons_append, splitOn, if_neg hc, ih, splitOn, if_neg hc, hsplit]
      rfl

/-- The first separator ends the first piece. -/
theorem splitOn_append {cs : List Char} (h : sep ∉ cs) (after : List Char) :
    splitOn sep (cs ++ sep :: after) = cs :: splitOn sep after := by
  rw [splitOn_append_sep, splitOn_of_not_mem h]
  rfl

theorem joinStrings_cons (s : String) {rest : List String} (hne : rest ≠ []) :
    joinStrings "/" (s :: rest) = s ++ "/" ++ joinStrings "/" rest := by
  cases rest with
  | nil => exact absurd rfl hne
  | cons t rest => rfl

theorem joinStrings_concat {names : List String} (hne : names ≠ []) (last : String) :
    joinStrings "/" (names ++ [last]) = joinStrings "/" names ++ "/" ++ last := by
  induction names with
  | nil => exact absurd rfl hne
  | cons s names ih =>
    rw [List.cons_append, joinStrings_cons s (by simp)]
    cases names with
    | nil => rfl
    | cons t names =>
      rw [ih (by simp), joinStrings_cons s (by simp), ← String.append_assoc, ← String.append_assoc]

/-- Names without slashes are the first pieces of the path that begins with them. -/
theorem splitString_concat {names : List String} (h : ∀ s ∈ names, '/' ∉ s.toList)
    (last : String) :
    splitString '/' (joinStrings "/" (names ++ [last])) = names ++ splitString '/' last := by
  induction names with
  | nil => rfl
  | cons s names ih =>
    have ih := ih fun x hx => h x (List.mem_cons_of_mem s hx)
    have hs : '/' ∉ s.toList := h s List.mem_cons_self
    have htext : (s ++ "/" ++ joinStrings "/" (names ++ [last])).toList =
        s.toList ++ '/' :: (joinStrings "/" (names ++ [last])).toList := by
      rw [String.toList_append, String.toList_append, List.append_assoc]
      rfl
    rw [List.cons_append, joinStrings_cons s (by simp), splitString, htext, splitOn_append hs,
      List.map_cons, String.ofList_toList]
    exact congrArg (s :: ·) ih

/-- Names without slashes are found again in the path that joins them. -/
theorem splitString_joinStrings {names : List String} (hne : names ≠ [])
    (h : ∀ s ∈ names, '/' ∉ s.toList) : splitString '/' (joinStrings "/" names) = names := by
  have hlast : '/' ∉ (names.getLast hne).toList := h _ (List.getLast_mem hne)
  have hfront : ∀ s ∈ names.dropLast, '/' ∉ s.toList :=
    fun s hs => h s (List.dropLast_subset names hs)
  have hsplit := splitString_concat hfront (names.getLast hne)
  rwa [splitString, splitString, splitOn_of_not_mem hlast, List.map_singleton,
    String.ofList_toList, List.dropLast_concat_getLast] at hsplit

end Text

/-! ## Segments -/

/-- A text that a file or a folder can have as its name. -/
structure IsSegment (s : String) : Prop where
  ne_empty : s ≠ ""
  ne_here : s ≠ "."
  ne_up : s ≠ ".."
  no_slash : '/' ∉ s.toList
  no_backslash : '\\' ∉ s.toList

/-- A segment is a step down. -/
theorem IsSegment.step {s : String} (h : IsSegment s) (p : Place) : p.step s = p ++ [s] := by
  have hempty : s.isEmpty = false := by
    rw [Bool.eq_false_iff]
    intro hs
    exact h.ne_empty (String.isEmpty_iff.mp hs)
  have hhere : (s == ".") = false := beq_false_of_ne h.ne_here
  rw [Place.step, hempty, hhere, if_neg (by decide), if_neg h.ne_up]

/-- What stands in front of a segment depends on the folder only. -/
theorem exists_joinSegment (base : String) :
    ∃ front : String, ∀ s, joinSegment base s = front ++ s := by
  by_cases h : base.toList.getLast?.all (· == '/') = true
  · exact ⟨base, fun s => if_pos h⟩
  · exact ⟨base ++ "/", fun s => if_neg h⟩

/-- The next segment after a segment has a slash before it. -/
theorem joinSegment_joinSegment {s : String} (h : IsSegment s) (base t : String) :
    joinSegment (joinSegment base s) t = joinSegment base (s ++ "/" ++ t) := by
  obtain ⟨front, hfront⟩ := exists_joinSegment base
  have hlast : (front ++ s).toList.getLast?.all (· == '/') = false := by
    rw [String.toList_append, List.getLast?_append]
    rcases hs : s.toList.getLast? with _ | c
    · have hnil : s.toList = [] := List.getLast?_eq_none_iff.mp hs
      exact absurd (String.toList_eq_nil_iff.mp hnil) h.ne_empty
    · have hc : c ≠ '/' := fun heq => h.no_slash (heq ▸ List.mem_of_getLast? hs)
      simpa using hc
  rw [hfront s, hfront, joinSegment, hlast, if_neg (by decide), String.append_assoc,
    String.append_assoc, String.append_assoc]

/-- Different paths lead to different places below one folder. -/
theorem joinSegment_injective (base : String) {s t : String}
    (h : joinSegment base s = joinSegment base t) : s = t := by
  obtain ⟨front, hfront⟩ := exists_joinSegment base
  rw [hfront, hfront] at h
  exact (String.append_right_inj front).mp h

variable {names : List String}

theorem pathSegments_joinStrings (hne : names ≠ []) (h : ∀ s ∈ names, IsSegment s) :
    pathSegments (Text.joinStrings "/" names) = names := by
  rw [pathSegments, Text.splitString_joinStrings hne fun s hs => (h s hs).no_slash,
    List.filter_eq_self]
  intro s hs
  rw [Bool.not_eq_true', Bool.eq_false_iff]
  intro hempty
  exact (h s hs).ne_empty (String.isEmpty_iff.mp hempty)

theorem foldl_joinSegment (hne : names ≠ []) (h : ∀ s ∈ names, IsSegment s) (base : String) :
    names.foldl joinSegment base = joinSegment base (Text.joinStrings "/" names) := by
  induction names generalizing base with
  | nil => exact absurd rfl hne
  | cons s names ih =>
    cases names with
    | nil => rfl
    | cons t names =>
      have ih := ih (by simp) (fun x hx => h x (List.mem_cons_of_mem s hx)) (joinSegment base s)
      rw [List.foldl_cons, ih, joinSegment_joinSegment (h s List.mem_cons_self)]
      rfl

/-- The place of a file has the path of the folder in front of the path of the file. -/
theorem target_joinStrings (hne : names ≠ []) (h : ∀ s ∈ names, IsSegment s) {f : GeneratedFile}
    (hpath : f.path = Text.joinStrings "/" names) (base : String) :
    f.target base = joinSegment base f.path := by
  rw [GeneratedFile.target, hpath, pathSegments_joinStrings hne h, foldl_joinSegment hne h]

/-- Every segment is a step down. -/
theorem foldl_step (h : ∀ s ∈ names, IsSegment s) (p : Place) :
    names.foldl Place.step p = p ++ names := by
  induction names generalizing p with
  | nil => rw [List.append_nil]; rfl
  | cons s names ih =>
    have ih := ih (fun x hx => h x (List.mem_cons_of_mem s hx)) (p ++ [s])
    rw [List.foldl_cons, (h s List.mem_cons_self).step, ih, List.append_assoc]
    rfl

end OpenApiClient
