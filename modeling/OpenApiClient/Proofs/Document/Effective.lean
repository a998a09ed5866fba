import Mathlib.Data.List.Forall2
import OpenApiClient.Proofs.Document.Normal

/-!
# Effective parameters

A path may share parameters with its operations. Normalization adds them to each operation one after
another, and leaves out those for whose place, a name at a location, the growing list has one
already. What comes out is described without the loop (`Effective`): the operation's own parameters
come first and stay as they are; after them stands one parameter for each further place that the
path has parameters for, in the order in which these places come first, and it is the path's first
one. There is only one such list (`effective_iff`), so nothing but the operation's own parameters
and those of its path can have a say in it.
-/

namespace OpenApiClient

/-- A place in a request: a name at a location. -/
structure Slot where
  name : String
  location : Location
  deriving DecidableEq

namespace Parameter

def slot (p : Parameter) : Slot :=
  ⟨p.name, p.location⟩

def first? (s : Slot) (ps : List Parameter) : Option Parameter :=
  ps.find? fun p => p.slot = s

/-- What the parameters of an operation are in effect, given its own and those of its path. -/
structure Effective (own shared ps : List Parameter) : Prop where
  stays : own <+: ps
  first : ∀ s, first? s ps = (first? s own).or (first? s shared)
  once : ∀ s ∈ shared.map slot, s ∉ own.map slot → (ps.map slot).count s = 1
  kept : ∀ s ∈ shared.map slot, s ∈ ps.map slot
  slots : ps.map slot =
    own.map slot ++ ((shared.map slot).filter fun s => s ∉ own.map slot).eraseDups

theorem first?_eq_none_iff {s : Slot} {ps : List Parameter} :
    first? s ps = none ↔ s ∉ ps.map slot := by
  simp [first?]

theorem first?_append (s : Slot) (ps qs : List Parameter) :
    first? s (ps ++ qs) = (first? s ps).or (first? s qs) :=
  List.find?_append

theorem first?_of_mem {p : Parameter} : ∀ {ps : List Parameter}, (ps.map slot).Nodup → p ∈ ps →
    first? p.slot ps = some p
  | [], _, hp => absurd hp List.not_mem_nil
  | q :: ps, hnodup, hp => by
    obtain ⟨hq, hnodup⟩ := List.nodup_cons.mp hnodup
    rw [first?, List.find?_cons]
    rcases List.mem_cons.mp hp with rfl | hp
    · simp
    · have hne : q.slot ≠ p.slot := fun heq => hq (heq ▸ List.mem_map_of_mem hp)
      rw [decide_eq_false hne]
      exact first?_of_mem hnodup hp

/-- Parameters for different places are found again by their places. -/
theorem filterMap_first? {ps : List Parameter} (h : (ps.map slot).Nodup) :
    ((ps.map slot).filterMap fun s => first? s ps) = ps := by
  rw [List.filterMap_map]
  refine (List.filterMap_congr fun p hp => ?_).trans List.filterMap_some
  exact first?_of_mem h hp

/-! ## One shared parameter after another -/

theorem any_sameSlot_iff {p : Parameter} {ps : List Parameter} :
    (ps.any fun q => q.sameSlot p) = true ↔ p.slot ∈ ps.map slot := by
  simp [sameSlot, slot]

/-- The last shared parameter is added if its place is still free. -/
theorem merge_concat (own shared : List Parameter) (p : Parameter) :
    merge own (shared ++ [p]) =
      if p.slot ∈ (merge own shared).map slot then merge own shared
      else merge own shared ++ [p] := by
  have hstep : merge own (shared ++ [p]) =
      if (merge own shared).any fun q => q.sameSlot p then merge own shared
      else merge own shared ++ [p] := by
    rw [merge, List.foldl_append]
    rfl
  rw [hstep]
  simp only [any_sameSlot_iff]

theorem own_prefix_merge (own shared : List Parameter) : own <+: merge own shared := by
  induction shared using List.reverseRecOn with
  | nil => exact List.prefix_rfl
  | append_singleton shared p ih =>
    rw [merge_concat]
    split_ifs
    · exact ih
    · exact ih.trans (List.prefix_append _ _)

theorem map_slot_merge (own shared : List Parameter) :
    (merge own shared).map slot =
      own.map slot ++ ((shared.map slot).filter fun s => s ∉ own.map slot).eraseDups := by
  induction shared using List.reverseRecOn with
  | nil =>
    show own.map slot = own.map slot ++ []
    rw [List.append_nil]
  | append_singleton shared p ih =>
    have htaken : p.slot ∈ (merge own shared).map slot ↔
        p.slot ∈ own.map slot ∨ p.slot ∈ (shared.map slot).filter fun s => s ∉ own.map slot := by
      rw [ih, List.mem_append, List.mem_eraseDups]
    rw [merge_concat, List.map_append, List.filter_append, List.map_singleton]
    by_cases hown : p.slot ∈ own.map slot
    · -- the operation has its own parameter for the place
      have hfilter : [p.slot].filter (fun s => s ∉ own.map slot) = [] := by simpa using hown
      rw [if_pos (htaken.mpr (Or.inl hown)), hfilter, List.append_nil, ih]
    · have hfilter : [p.slot].filter (fun s => s ∉ own.map slot) = [p.slot] := by simpa using hown
      rw [hfilter, eraseDups_concat]
      by_cases hshared : p.slot ∈ (shared.map slot).filter fun s => s ∉ own.map slot
      · rw [if_pos (htaken.mpr (Or.inr hshared)), if_pos hshared, ih]
      · have hfree : p.slot ∉ (merge own shared).map slot :=
          fun hmem => (htaken.mp hmem).elim hown hshared
        rw [if_neg hfree, if_neg hshared, List.map_append, ih, List.append_assoc]
        rfl

theorem first?_merge (s : Slot) (own shared : List Parameter) :
    first? s (merge own shared) = (first? s own).or (first? s shared) := by
  induction shared using List.reverseRecOn with
  | nil =>
    show first? s own = (first? s own).or none
    rw [Option.or_none]
  | append_singleton shared p ih =>
    rw [merge_concat, first?_append, ← Option.or_assoc, ← ih]
    split_ifs with htaken
    · -- a parameter that is left out is not the first one for its place
      by_cases hs : p.slot = s
      · have hfound : first? s (merge own shared) ≠ none :=
          fun hnone => first?_eq_none_iff.mp hnone (hs ▸ htaken)
        obtain ⟨q, hq⟩ := Option.ne_none_iff_exists'.mp hfound
        rw [hq, Option.some_or]
      · have hother : first? s [p] = none := by simp [first?, hs]
        rw [hother, Option.or_none]
    · exact first?_append s _ _

/-! ## All shared parameters -/

theorem effective_merge (own shared : List Parameter) :
    Effective own shared (merge own shared) := by
  constructor
  case stays => exact own_prefix_merge own shared
  case first => exact fun s => first?_merge s own shared
  case once =>
    intro s hs hown
    have hmem : s ∈ ((shared.map slot).filter fun s => s ∉ own.map slot).eraseDups :=
      List.mem_eraseDups.mpr (List.mem_filter.mpr ⟨hs, by simpa using hown⟩)
    rw [map_slot_merge, List.count_append, List.count_eq_zero.mpr hown, Nat.zero_add]
    exact List.count_eq_one_of_mem (nodup_eraseDups _) hmem
  case kept =>
    intro s hs
    rw [map_slot_merge, List.mem_append, List.mem_eraseDups, List.mem_filter]
    by_cases hown : s ∈ own.map slot
    · exact Or.inl hown
    · exact Or.inr ⟨hs, by simpa using hown⟩
  case slots => exact map_slot_merge own shared

/-- The effective parameters are written out: each added one is the first for its place. -/
theorem Effective.eq_append {own shared ps : List Parameter} (h : Effective own shared ps) :
    ps = own ++ ((shared.map slot).filter fun s => s ∉ own.map slot).eraseDups.filterMap
      fun s => first? s shared := by
  obtain ⟨added, rfl⟩ := h.stays
  have hslots : added.map slot =
      ((shared.map slot).filter fun s => s ∉ own.map slot).eraseDups := by
    have heq := h.slots
    rw [List.map_append] at heq
    exact List.append_cancel_left heq
  have hnodup : (added.map slot).Nodup := hslots ▸ nodup_eraseDups _
  congr 1
  rw [← filterMap_first? hnodup, hslots]
  refine List.filterMap_congr fun s hs => ?_
  -- for a place that the operation has no parameter for, the first one is the first added one
  have hown : first? s own = none := by
    rw [List.mem_eraseDups, List.mem_filter] at hs
    exact first?_eq_none_iff.mpr (by simpa using hs.2)
  have hfirst := h.first s
  rwa [first?_append, hown, Option.none_or, Option.none_or] at hfirst

/-- There is one list of effective parameters, and merging gives it. -/
theorem effective_iff {own shared ps : List Parameter} :
    Effective own shared ps ↔ ps = merge own shared := by
  constructor
  · intro h
    exact h.eq_append.trans (effective_merge own shared).eq_append.symm
  · rintro rfl
    exact effective_merge own shared

end Parameter

namespace Document

theorem paths_normalize (d : Document) :
    d.normalize.paths = d.paths.map fun p => (p.1, p.2.normalize) := by
  obtain ⟨tags, htags⟩ := declareTags_eq d.withNormalPaths
  rw [normalize, htags]
  rfl

/-- **Effective parameters.** Normalization keeps every path with its operations. The path shares
nothing any more, and the parameters of each operation are the effective ones: the only list that
its own parameters and those of its path allow. -/
theorem parameters_effective (d : Document) :
    List.Forall₂
      (fun before after => after.1 = before.1 ∧ after.2.parameters = [] ∧
        List.Forall₂
          (fun own op => op.1 = own.1 ∧ ∀ ps,
            Parameter.Effective own.2.parameters before.2.parameters ps ↔ ps = op.2.parameters)
          before.2.operations after.2.operations)
      d.paths d.normalize.paths := by
  rw [paths_normalize, List.forall₂_map_right_iff, List.forall₂_same]
  intro p _
  refine ⟨rfl, rfl, ?_⟩
  show List.Forall₂ _ p.2.operations (p.2.operations.map _)
  rw [List.forall₂_map_right_iff, List.forall₂_same]
  intro o _
  refine ⟨rfl, fun ps => ?_⟩
  exact Parameter.effective_iff

end Document

end OpenApiClient
