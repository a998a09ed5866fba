import OpenApiClient.Proofs.Output.Directories
import OpenApiClient.Proofs.Output.Paths

/-!
# The way to a generated file

The steps to a file that is written below a folder lead into the folder first, and then down by the
segments of its path (`exists_stepsInto`); and no path goes on from another one
(`Route.eq_of_isPrefix`).
-/

namespace OpenApiClient

namespace Text

theorem splitString_append_slash (s t : String) :
    splitString '/' (s ++ "/" ++ t) = splitString '/' s ++ splitString '/' t := by
  have htext : (s ++ "/" ++ t).toList = s.toList ++ '/' :: t.toList := by
    rw [String.toList_append, String.toList_append, List.append_assoc]
    rfl
  rw [splitString, htext, splitOn_append_sep, List.map_append]
  rfl

theorem splitString_ne_nil (s : String) : splitString '/' s ≠ [] := by
  intro hnil
  exact splitOn_ne_nil '/' s.toList (List.map_eq_nil_iff.mp hnil)

theorem eq_empty_of_splitString {s : String} (h : splitString '/' s = [""]) : s = "" := by
  have hpieces : splitOn '/' s.toList = [[]] := by
    rw [splitString, List.map_eq_singleton_iff] at h
    obtain ⟨cs, hcs, hempty⟩ := h
    rw [hcs, String.ofList_eq_empty_iff.mp hempty]
  have hjoin := join_splitOn '/' s.toList
  rw [hpieces] at hjoin
  exact String.toList_eq_nil_iff.mp hjoin.symm

end Text

/-- Only a last piece that is empty is left out before the pieces of a path that is appended. -/
theorem splitString_joinSegment (base : String) :
    ∃ pieces, (Text.splitString '/' base = pieces ∧ pieces ≠ [""] ∨
        Text.splitString '/' base = pieces ++ [""]) ∧
      ∀ t, Text.splitString '/' (joinSegment base t) = pieces ++ Text.splitString '/' t := by
  rcases hlast : base.toList.getLast? with _ | c
  · have hempty : base = "" := String.toList_eq_nil_iff.mp (List.getLast?_eq_none_iff.mp hlast)
    subst hempty
    refine ⟨[], Or.inr rfl, fun t => ?_⟩
    rw [joinSegment, if_pos (by decide), String.empty_append]
    rfl
  · by_cases hc : c = '/'
    · subst hc
      obtain ⟨front, hfront⟩ := List.getLast?_eq_some_iff.mp hlast
      have hbase : base = String.ofList front ++ "/" ++ "" := by
        rw [String.append_empty, ← String.toList_inj, hfront, String.toList_append,
          String.toList_ofList]
        rfl
      refine ⟨Text.splitString '/' (String.ofList front), Or.inr ?_, fun t => ?_⟩
      · rw [hbase, Text.splitString_append_slash]
        rfl
      · rw [joinSegment, hlast, if_pos (by decide)]
        conv_lhs => rw [hbase, String.append_empty]
        exact Text.splitString_append_slash _ t
    · refine ⟨Text.splitString '/' base, Or.inl ⟨rfl, fun heq => ?_⟩, fun t => ?_⟩
      · rw [Text.eq_empty_of_splitString heq] at hlast
        cases hlast
      · rw [joinSegment, hlast, if_neg (by simpa using hc)]
        exact Text.splitString_append_slash base t

/-! ## The way to a generated file -/

def GeneratedFile.place (base : String) (f : GeneratedFile) : Place :=
  Place.ofPath (f.target base)

/-- Whether the steps to a file are those into a folder, followed by the segments of its path. -/
structure GeneratedFile.LiesBelow (base : String) (into : List String) (f : GeneratedFile) :
    Prop where
  ne_nil : pathSegments f.path ≠ []
  isSegment : ∀ s ∈ pathSegments f.path, IsSegment s
  stepsOf_target : stepsOf (f.target base) = ((stepsOf base).1, into ++ pathSegments f.path)

/-- An empty piece at the end of a path is a step that leads nowhere. -/
theorem exists_stepsOf {path : String} {pieces : List String}
    (h : Text.splitString '/' path = pieces ∧ pieces ≠ [""] ∨
      Text.splitString '/' path = pieces ++ [""]) :
    ∃ into, ((stepsOf path).2 = into ∨ (stepsOf path).2 = into ++ [""]) ∧
      ∀ path' s names, s ≠ "" → Text.splitString '/' path' = pieces ++ s :: names →
        stepsOf path' = ((stepsOf path).1, into ++ s :: names) := by
  rcases h with ⟨hpath, hne⟩ | hpath
  · refine ⟨(stepsOf path).2, Or.inl rfl, fun path' s names _ hpath' => ?_⟩
    rw [stepsOf, stepsOf, hpath, hpath']
    rcases pieces with _ | ⟨piece, _ | ⟨next, rest⟩⟩
    · exact absurd hpath (Text.splitString_ne_nil path)
    · have hpiece : piece ≠ "" := fun heq => hne (heq ▸ rfl)
      simp [hpiece]
    · by_cases hpiece : piece = "" <;> simp [hpiece]
  · rcases pieces with _ | ⟨piece, _ | ⟨next, rest⟩⟩
    · refine ⟨[], Or.inr (by rw [stepsOf, hpath]; rfl), fun path' s names hs hpath' => ?_⟩
      simp [stepsOf, hpath, hpath', hs]
    · by_cases hpiece : piece = ""
      · refine ⟨[], Or.inr (by rw [stepsOf, hpath, hpiece]; rfl), fun path' s names _ hpath' => ?_⟩
        simp [stepsOf, hpath, hpath', hpiece]
      · refine ⟨[piece], Or.inr (by simp [stepsOf, hpath, hpiece]),
          fun path' s names _ hpath' => ?_⟩
        simp [stepsOf, hpath, hpath', hpiece]
    · by_cases hpiece : piece = ""
      · refine ⟨next :: rest, Or.inr (by simp [stepsOf, hpath, hpiece]),
          fun path' s names _ hpath' => ?_⟩
        simp [stepsOf, hpath, hpath', hpiece]
      · refine ⟨piece :: next :: rest, Or.inr (by simp [stepsOf, hpath, hpiece]),
          fun path' s names _ hpath' => ?_⟩
        simp [stepsOf, hpath, hpath', hpiece]

/-- The steps into a folder are those of its path, but for one that leads nowhere. -/
theorem exists_stepsInto (base : String) :
    ∃ into, ((stepsOf base).2 = into ∨ (stepsOf base).2 = into ++ [""]) ∧
      ∀ (f : GeneratedFile) (names : List String), Route names →
        f.path = Text.joinStrings "/" names → f.LiesBelow base into := by
  obtain ⟨pieces, hpieces, hjoin⟩ := splitString_joinSegment base
  obtain ⟨into, hinto, hsteps⟩ := exists_stepsOf hpieces
  refine ⟨into, hinto, fun f names hnames hpath => ?_⟩
  have hsegments : pathSegments f.path = names := by
    rw [hpath]
    exact pathSegments_joinStrings hnames.ne_nil hnames.isSegment
  have htarget : Text.splitString '/' (f.target base) = pieces ++ names := by
    rw [target_joinStrings hnames.ne_nil hnames.isSegment hpath, hjoin, hpath,
      hnames.splitString_eq]
  obtain ⟨s, rest, rfl⟩ := List.exists_cons_of_ne_nil hnames.ne_nil
  have hs : s ≠ "" := (hnames.isSegment s List.mem_cons_self).ne_empty
  constructor
  case ne_nil => exact hsegments ▸ hnames.ne_nil
  case isSegment => exact hsegments ▸ hnames.isSegment
  case stepsOf_target =>
    rw [hsegments]
    exact hsteps _ s rest hs htarget

/-- No path goes on from another one. -/
theorem Route.eq_of_isPrefix {names others : List String} (h : Route names) (h' : Route others)
    (hbefore : names <+: others) : names = others := by
  cases h with
  | root segment dot latin =>
    cases h' with
    | root => rw [(List.cons_prefix_cons.mp hbefore).1]
    | folder outer inner apart =>
      -- the file would have the name of the folder
      rw [← (List.cons_prefix_cons.mp hbefore).1] at apart
      rcases apart with hdot | hscript
      · exact absurd dot hdot
      · rw [latin] at hscript
        exact absurd hscript (by decide)
  | folder =>
    cases h' with
    | root => exact absurd hbefore.length_le (by simp)
    | folder => exact hbefore.eq_of_length rfl

namespace GeneratedFile.LiesBelow

variable {base : String} {into : List String} {f : GeneratedFile}

theorem place_eq (h : f.LiesBelow base into) :
    f.place base = into.foldl Place.step (stepsOf base).1 ++ pathSegments f.path := by
  rw [place, Place.ofPath, h.stepsOf_target, List.foldl_append]
  exact foldl_step h.isSegment _

/-- The last step is the name of the file, and the steps before it lead to its folder. -/
theorem exists_way (h : f.LiesBelow base into) :
    ∃ front name, pathSegments f.path = front ++ [name] ∧ (∀ s ∈ front, IsSegment s) ∧
      IsSegment name ∧ stepsOf (f.target base) = ((stepsOf base).1, into ++ front ++ [name]) ∧
      (into ++ front).foldl Place.step (stepsOf base).1 ++ [name] = f.place base := by
  have hsegments := (List.dropLast_concat_getLast h.ne_nil).symm
  have hfront : ∀ s ∈ (pathSegments f.path).dropLast, IsSegment s :=
    fun s hs => h.isSegment s (List.dropLast_subset _ hs)
  refine ⟨_, _, hsegments, hfront, h.isSegment _ (List.getLast_mem h.ne_nil), ?_, ?_⟩
  · rw [List.append_assoc, ← hsegments]
    exact h.stepsOf_target
  · rw [List.foldl_append, foldl_step hfront, List.append_assoc, ← hsegments, h.place_eq]

end GeneratedFile.LiesBelow

end OpenApiClient
