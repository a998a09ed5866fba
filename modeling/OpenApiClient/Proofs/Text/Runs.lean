import Mathlib.Data.List.Sort
import OpenApiClient.Proofs.Names.Words
import OpenApiClient.Text.Slug

/-!
# Maximal runs

The runs that a slug is made of are found by a recursion that looks one character ahead
(`slugRuns`). They are described by places: a run stands between two places if there are slug
characters from the one up to the other, and none at the place before or at the place behind
(`IsRunAt`). The runs of a text are what stands between all such places, from left to right
(`AreRuns`), and `slugRuns` gives these and no others (`areRuns_iff`).

Every text is a run, perhaps an empty one, or such a run in front of a separator and of another
text. What has to be shown for texts is shown along this division (`runInduction`).
-/

namespace OpenApiClient.Text

/-- The maximal runs of slug characters of a text, in order. -/
def slugRuns : List Char → List (List Char)
  | [] => []
  | c :: rest =>
    if isSlugChar c then
      match rest with
      | [] => [[c]]
      | d :: _ =>
        if isSlugChar d then
          match slugRuns rest with
          | [] => [[c]]
          | run :: runs => (c :: run) :: runs
        else [c] :: slugRuns rest
    else slugRuns rest

/-- Runs hold slug characters only. -/
theorem isSlugChar_of_mem_slugRuns {cs run : List Char} (hrun : run ∈ slugRuns cs) {c : Char}
    (hc : c ∈ run) : isSlugChar c = true := by
  fun_induction slugRuns cs generalizing run with
  | case1 => exact absurd hrun List.not_mem_nil
  | case2 a ha =>
    rw [List.mem_singleton.mp hrun, List.mem_singleton] at hc
    rwa [hc]
  | case3 a ha b rest hb hnil ih =>
    rw [hnil] at hrun
    rw [List.mem_singleton.mp hrun, List.mem_singleton] at hc
    rwa [hc]
  | case4 a ha b rest hb first runs hcons ih =>
    -- `a` goes to the front of the run that begins with `b`
    rw [hcons] at hrun ih
    rcases List.mem_cons.mp hrun with rfl | hrun
    · rcases List.mem_cons.mp hc with rfl | hc
      · exact ha
      · exact ih List.mem_cons_self hc
    · exact ih (List.mem_cons_of_mem first hrun) hc
  | case5 a ha b rest hb ih =>
    rcases List.mem_cons.mp hrun with rfl | hrun
    · rwa [List.mem_singleton.mp hc]
    · exact ih hrun hc
  | case6 a rest ha ih => exact ih hrun hc

/-! ## Places of runs -/

def slugAt (cs : List Char) (i : Nat) : Bool :=
  cs[i]?.any isSlugChar

/-- A run stands from the place `i` up to the place `j`, and it goes no further on either side. -/
structure IsRunAt (cs : List Char) (i j : Nat) : Prop where
  lt : i < j
  inside : ∀ k, i ≤ k → k < j → slugAt cs k = true
  starts : ∀ k, k + 1 = i → slugAt cs k = false
  stops : slugAt cs j = false

/-- The places of all runs of a text, from left to right. -/
structure ArePlaces (cs : List Char) (places : List (Nat × Nat)) : Prop where
  sorted : places.Pairwise fun p q => p.1 < q.1
  mem_iff : ∀ p : Nat × Nat, p ∈ places ↔ IsRunAt cs p.1 p.2

def between (cs : List Char) (p : Nat × Nat) : List Char :=
  (cs.take p.2).drop p.1

/-- The maximal runs of slug characters in a text, from left to right. -/
def AreRuns (cs : List Char) (runs : List (List Char)) : Prop :=
  ∃ places, ArePlaces cs places ∧ runs = places.map (between cs)

/-- Which places are those of runs determines their list. -/
theorem ArePlaces.unique {cs : List Char} {places places' : List (Nat × Nat)}
    (h : ArePlaces cs places) (h' : ArePlaces cs places') : places = places' := by
  have : Std.Irrefl fun p q : Nat × Nat => p.1 < q.1 := ⟨fun p => Nat.lt_irrefl p.1⟩
  have : Std.Antisymm fun p q : Nat × Nat => p.1 < q.1 :=
    ⟨fun _ _ hlt hgt => absurd hgt (Nat.lt_asymm hlt)⟩
  exact h.sorted.eq_of_mem_iff h'.sorted fun p => (h.mem_iff p).trans (h'.mem_iff p).symm

theorem AreRuns.unique {cs : List Char} {runs runs' : List (List Char)} (h : AreRuns cs runs)
    (h' : AreRuns cs runs') : runs = runs' := by
  obtain ⟨places, hplaces, rfl⟩ := h
  obtain ⟨places', hplaces', rfl⟩ := h'
  rw [hplaces.unique hplaces']

/-! ## Runs in front of separators -/

/-- The run that slug characters make up; none of them make up no run. -/
def asRun (run : List Char) : List (List Char) :=
  if run.isEmpty then [] else [run]

def firstPlace (run : List Char) : List (Nat × Nat) :=
  (asRun run).map fun run => (0, run.length)

theorem mem_firstPlace {run : List Char} {p : Nat × Nat} :
    p ∈ firstPlace run ↔ run ≠ [] ∧ p.1 = 0 ∧ p.2 = run.length := by
  unfold firstPlace asRun
  split_ifs with hempty
  · simp [List.isEmpty_iff.mp hempty]
  · have hne : run ≠ [] := by simpa using hempty
    simp [hne, Prod.ext_iff]

theorem map_between_firstPlace (run rest : List Char) :
    (firstPlace run).map (between (run ++ rest)) = asRun run := by
  unfold firstPlace asRun
  split_ifs <;> simp [between]

section Runs

variable {run : List Char} (hrun : ∀ c ∈ run, isSlugChar c = true)
include hrun

theorem slugAt_run (rest : List Char) {k : Nat} (h : k < run.length) :
    slugAt (run ++ rest) k = true := by
  rw [slugAt, List.getElem?_append_left h, List.getElem?_eq_getElem h]
  exact hrun _ (List.getElem_mem h)

/-- Where slug characters come to an end, there is the run that they make up. -/
theorem isRunAt_run {rest : List Char} (hstop : slugAt (run ++ rest) run.length = false)
    {i j : Nat} (hi : i ≤ run.length) :
    IsRunAt (run ++ rest) i j ↔ run ≠ [] ∧ i = 0 ∧ j = run.length := by
  have hinside : ∀ {k : Nat}, k < run.length → slugAt (run ++ rest) k ≠ false := by
    intro k hk
    rw [slugAt_run hrun rest hk]
    decide
  constructor
  · intro h
    have hj : run.length = j := by
      apply Nat.le_antisymm
      · exact Nat.le_of_not_lt fun hlt => hinside hlt h.stops
      · refine Nat.le_of_not_lt fun hlt => ?_
        rw [h.inside run.length hi hlt] at hstop
        exact absurd hstop (by decide)
    have hzero : i = 0 := by
      by_contra hne
      have hlt := h.lt
      exact hinside (by omega) (h.starts (i - 1) (by omega))
    refine ⟨List.length_pos_iff.mp ?_, hzero, hj.symm⟩
    have hlt := h.lt
    omega
  · rintro ⟨hne, rfl, rfl⟩
    exact ⟨List.length_pos_iff.mpr hne, fun k _ hk => slugAt_run hrun rest hk, by omega, hstop⟩

theorem areRuns_run : AreRuns run (asRun run) := by
  have hbehind : ∀ {k : Nat}, run.length ≤ k → slugAt run k = false := by
    intro k hk
    rw [slugAt, List.getElem?_eq_none hk]
    rfl
  have hfront := @isRunAt_run run hrun []
  have hslices := map_between_firstPlace run []
  rw [List.append_nil] at hfront hslices
  refine ⟨firstPlace run, ⟨?_, ?_⟩, hslices.symm⟩
  · unfold firstPlace asRun
    split_ifs <;> simp
  · rintro ⟨i, j⟩
    rw [mem_firstPlace]
    rcases Nat.lt_or_ge run.length i with hi | hi
    · -- no run begins behind the text
      constructor
      · rintro ⟨-, rfl, -⟩
        exact absurd hi (Nat.not_lt_zero _)
      · intro h
        have hin := h.inside i (Nat.le_refl i) h.lt
        rw [hbehind (Nat.le_of_lt hi)] at hin
        exact absurd hin (by decide)
    · exact (hfront (hbehind (Nat.le_refl _)) hi).symm

end Runs

section Separators

variable {run rest : List Char} {sep : Char}

/-- Behind a run and a separator, places are those of the rest. -/
theorem slugAt_append_separator (run : List Char) (sep : Char) (rest : List Char) (k : Nat) :
    slugAt (run ++ sep :: rest) (run.length + 1 + k) = slugAt rest k := by
  rw [slugAt, List.getElem?_append_right (by omega),
    show run.length + 1 + k - run.length = k + 1 by omega, List.getElem?_cons_succ, slugAt]

theorem slugAt_separator (hsep : isSlugChar sep = false) (run rest : List Char) :
    slugAt (run ++ sep :: rest) run.length = false := by
  simp [slugAt, hsep]

/-- A separator stops the look to the left, so the runs behind it are those of the rest. -/
theorem isRunAt_append_separator (hsep : isSlugChar sep = false) {i j : Nat} :
    IsRunAt (run ++ sep :: rest) (run.length + 1 + i) (run.length + 1 + j) ↔
      IsRunAt rest i j := by
  have hrest := slugAt_append_separator run sep rest
  constructor
  · intro h
    have hlt := h.lt
    refine ⟨by omega, ?_, ?_, ?_⟩
    · intro k hik hkj
      rw [← hrest]
      exact h.inside _ (by omega) (by omega)
    · intro k hk
      rw [← hrest]
      exact h.starts _ (by omega)
    · rw [← hrest]
      exact h.stops
  · intro h
    have hlt := h.lt
    refine ⟨by omega, ?_, ?_, ?_⟩
    · intro k hik hkj
      obtain ⟨k, rfl⟩ := Nat.exists_eq_add_of_le (show run.length + 1 ≤ k by omega)
      rw [hrest]
      exact h.inside k (by omega) (by omega)
    · intro k hk
      rcases Nat.eq_zero_or_pos i with rfl | hpos
      · rw [show k = run.length by omega]
        exact slugAt_separator hsep run rest
      · obtain ⟨k, rfl⟩ := Nat.exists_eq_add_of_le (show run.length + 1 ≤ k by omega)
        rw [hrest]
        exact h.starts k (by omega)
    · rw [hrest]
      exact h.stops

def placesBehind (run : List Char) (places : List (Nat × Nat)) : List (Nat × Nat) :=
  places.map fun p => (run.length + 1 + p.1, run.length + 1 + p.2)

theorem map_between_placesBehind (run : List Char) (sep : Char) (rest : List Char)
    (places : List (Nat × Nat)) :
    (placesBehind run places).map (between (run ++ sep :: rest)) = places.map (between rest) := by
  rw [placesBehind, List.map_map]
  refine List.map_congr_left fun p _ => ?_
  have htext : run ++ sep :: rest = (run ++ [sep]) ++ rest := by simp
  have hlen : run.length + 1 = (run ++ [sep]).length := by simp
  rw [Function.comp_apply, between, between, htext, hlen, List.take_length_add_append,
    List.drop_length_add_append]

theorem arePlaces_append_separator (hrun : ∀ c ∈ run, isSlugChar c = true)
    (hsep : isSlugChar sep = false) {places : List (Nat × Nat)} (h : ArePlaces rest places) :
    ArePlaces (run ++ sep :: rest) (firstPlace run ++ placesBehind run places) := by
  have hfront := @isRunAt_run run hrun (sep :: rest) (slugAt_separator hsep run rest)
  constructor
  · rw [List.pairwise_append, placesBehind, List.pairwise_map]
    refine ⟨?_, h.sorted.imp (by omega), ?_⟩
    · unfold firstPlace asRun
      split_ifs <;> simp
    · intro p hp q hq
      obtain ⟨-, hzero, -⟩ := mem_firstPlace.mp hp
      obtain ⟨q', -, rfl⟩ := List.mem_map.mp hq
      show p.1 < run.length + 1 + q'.1
      omega
  · rintro ⟨i, j⟩
    rw [List.mem_append, mem_firstPlace]
    constructor
    · rintro (hfirst | hbehind)
      · exact (hfront (hfirst.2.1 ▸ Nat.zero_le _)).mpr hfirst
      · obtain ⟨p, hp, heq⟩ := List.mem_map.mp hbehind
        obtain ⟨rfl, rfl⟩ := Prod.mk.inj heq
        exact (isRunAt_append_separator hsep).mpr ((h.mem_iff p).mp hp)
    · intro hat
      rcases Nat.lt_or_ge run.length i with hi | hi
      · have hlt := hat.lt
        obtain ⟨i, rfl⟩ := Nat.exists_eq_add_of_le (show run.length + 1 ≤ i by omega)
        obtain ⟨j, rfl⟩ := Nat.exists_eq_add_of_le (show run.length + 1 ≤ j by omega)
        have hrest := (isRunAt_append_separator hsep).mp hat
        exact Or.inr (List.mem_map.mpr ⟨(i, j), (h.mem_iff (i, j)).mpr hrest, rfl⟩)
      · exact Or.inl ((hfront hi).mp hat)

/-- A run, a separator and a text have the run and the runs of the text. -/
theorem areRuns_append_separator (hrun : ∀ c ∈ run, isSlugChar c = true)
    (hsep : isSlugChar sep = false) {runs : List (List Char)} (h : AreRuns rest runs) :
    AreRuns (run ++ sep :: rest) (asRun run ++ runs) := by
  obtain ⟨places, hplaces, rfl⟩ := h
  refine ⟨_, arePlaces_append_separator hrun hsep hplaces, ?_⟩
  rw [List.map_append, map_between_firstPlace, map_between_placesBehind]

/-! ## The runs that are found -/

theorem slugRuns_run (hrun : ∀ c ∈ run, isSlugChar c = true) : slugRuns run = asRun run := by
  induction run with
  | nil => rfl
  | cons c run ih =>
    have hc := hrun c List.mem_cons_self
    cases run with
    | nil => simp [slugRuns, hc, asRun]
    | cons d after =>
      have hd : isSlugChar d = true := hrun d (by simp)
      rw [slugRuns, if_pos hc, if_pos hd, ih fun x hx => hrun x (List.mem_cons_of_mem c hx)]
      rfl

theorem slugRuns_append_separator (hrun : ∀ c ∈ run, isSlugChar c = true)
    (hsep : isSlugChar sep = false) (rest : List Char) :
    slugRuns (run ++ sep :: rest) = asRun run ++ slugRuns rest := by
  induction run with
  | nil => cases rest <;> simp [slugRuns, hsep, asRun]
  | cons c run ih =>
    have hc := hrun c List.mem_cons_self
    cases run with
    | nil => cases rest <;> simp [slugRuns, hc, hsep, asRun]
    | cons d after =>
      have hd : isSlugChar d = true := hrun d (by simp)
      have hrest := ih fun x hx => hrun x (List.mem_cons_of_mem c hx)
      simp only [List.cons_append] at hrest ⊢
      rw [slugRuns, if_pos hc, if_pos hd, hrest]
      rfl

end Separators

/-- Every text is a run, or a run and a separator in front of another text. -/
@[elab_as_elim]
theorem runInduction {motive : List Char → Prop}
    (run : ∀ run, (∀ c ∈ run, isSlugChar c = true) → motive run)
    (separator : ∀ run sep rest, (∀ c ∈ run, isSlugChar c = true) → isSlugChar sep = false →
      motive rest → motive (run ++ sep :: rest)) (cs : List Char) : motive cs := by
  -- the run at hand grows until a separator comes
  suffices hgrow : ∀ begun, (∀ c ∈ begun, isSlugChar c = true) → motive (begun ++ cs) from
    hgrow [] (List.forall_mem_nil _)
  induction cs with
  | nil =>
    intro begun hbegun
    rw [List.append_nil]
    exact run begun hbegun
  | cons c cs ih =>
    intro begun hbegun
    by_cases hc : isSlugChar c = true
    · have hmore := ih (begun ++ [c]) (List.forall_mem_append.mpr ⟨hbegun, by simpa using hc⟩)
      rwa [List.append_assoc, List.singleton_append] at hmore
    · exact separator begun c cs hbegun (by simpa using hc) (ih [] (List.forall_mem_nil _))

theorem areRuns_slugRuns (cs : List Char) : AreRuns cs (slugRuns cs) := by
  induction cs using runInduction with
  | run run hrun =>
    rw [slugRuns_run hrun]
    exact areRuns_run hrun
  | separator run sep rest hrun hsep ih =>
    rw [slugRuns_append_separator hrun hsep]
    exact areRuns_append_separator hrun hsep ih

theorem areRuns_iff {cs : List Char} {runs : List (List Char)} :
    AreRuns cs runs ↔ runs = slugRuns cs := by
  constructor
  · intro h
    exact h.unique (areRuns_slugRuns cs)
  · rintro rfl
    exact areRuns_slugRuns cs

end OpenApiClient.Text
