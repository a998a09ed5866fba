import Mathlib.Data.List.Induction
import Mathlib.Data.List.Nodup
import OpenApiClient.Proofs.Noted

/-!
# Lists without repetitions

What keeps the first of equal items, one item after another, computes `List.eraseDups`. Its equation
for one more item at the end (`eraseDups_concat`) carries everything else: nothing is left twice,
nothing is lost if nothing was there twice, and it makes no difference whether items are selected
before or after. The diagnostics of a pass are the notes without repetitions
(`diagnostics_recordAll`).
-/

namespace OpenApiClient

section EraseDups

variable {α : Type} [DecidableEq α]

theorem eraseDups_concat (as : List α) (b : α) :
    (as ++ [b]).eraseDups = if b ∈ as then as.eraseDups else as.eraseDups ++ [b] := by
  rw [List.eraseDups_append]
  by_cases h : b ∈ as
  · simp [List.removeAll, h]
  · simp [List.removeAll, h, List.eraseDups_cons]

theorem nodup_eraseDups (as : List α) : as.eraseDups.Nodup := by
  induction as using List.reverseRecOn with
  | nil => exact List.nodup_nil
  | append_singleton as b ih =>
    rw [eraseDups_concat]
    split_ifs with h
    · exact ih
    · refine List.nodup_append.mpr ⟨ih, List.nodup_singleton b, ?_⟩
      intro a ha b' hb' heq
      rw [heq, List.mem_singleton.mp hb', List.mem_eraseDups] at ha
      exact h ha

theorem eraseDups_of_nodup {as : List α} (h : as.Nodup) : as.eraseDups = as := by
  induction as using List.reverseRecOn with
  | nil => rfl
  | append_singleton as b ih =>
    obtain ⟨has, -, hdisjoint⟩ := List.nodup_append.mp h
    have hb : b ∉ as := fun hmem => hdisjoint b hmem b (List.mem_singleton.mpr rfl) rfl
    rw [eraseDups_concat, if_neg hb, ih has]

theorem eraseDups_map {β : Type} [DecidableEq β] {f : α → β} {as : List α}
    (h : ∀ a ∈ as, ∀ b ∈ as, f a = f b → a = b) : (as.map f).eraseDups = as.eraseDups.map f := by
  induction as using List.reverseRecOn with
  | nil => rfl
  | append_singleton as b ih =>
    have has : ∀ a ∈ as, ∀ b ∈ as, f a = f b → a = b := fun a ha b hb =>
      h a (List.mem_append_left _ ha) b (List.mem_append_left _ hb)
    have hb : f b ∈ as.map f ↔ b ∈ as := by
      constructor
      · intro hmem
        obtain ⟨a, ha, heq⟩ := List.mem_map.mp hmem
        rwa [← h a (List.mem_append_left _ ha) b (by simp) heq]
      · intro hmem
        exact List.mem_map_of_mem hmem
    rw [List.map_append, List.map_singleton, eraseDups_concat, eraseDups_concat, ih has]
    by_cases hmem : b ∈ as
    · rw [if_pos hmem, if_pos (hb.mpr hmem)]
    · rw [if_neg hmem, if_neg (mt hb.mp hmem), List.map_append, List.map_singleton]

theorem filter_eraseDups (p : α → Bool) (as : List α) :
    as.eraseDups.filter p = (as.filter p).eraseDups := by
  induction as using List.reverseRecOn with
  | nil => rfl
  | append_singleton as b ih =>
    by_cases hb : p b = true
    · have hfilter : (as ++ [b]).filter p = as.filter p ++ [b] := by simp [hb]
      rw [hfilter, eraseDups_concat, eraseDups_concat, ← ih]
      by_cases hmem : b ∈ as
      · rw [if_pos hmem, if_pos (List.mem_filter.mpr ⟨hmem, hb⟩)]
      · rw [if_neg hmem, if_neg fun h => hmem (List.mem_filter.mp h).1, List.filter_append]
        simp [hb]
    · have hfilter : (as ++ [b]).filter p = as.filter p := by simp [hb]
      rw [hfilter, eraseDups_concat, ← ih]
      split_ifs
      · rfl
      · simp [hb]

end EraseDups

/-! ## Diagnostics -/

namespace Pass

theorem recordAll_append (notes more : List Diagnostic) (p : Pass) :
    p.recordAll (notes ++ more) = (p.recordAll notes).recordAll more :=
  List.foldl_append

/-- A pass collects the notes that it does not have yet, without repetitions. -/
theorem diagnostics_recordAll_eq (notes : List Diagnostic) (p : Pass) :
    (p.recordAll notes).diagnostics =
      p.diagnostics ++ (notes.filter fun d => d ∉ p.diagnostics).eraseDups := by
  induction notes using List.reverseRecOn with
  | nil => simp [recordAll]
  | append_singleton notes d ih =>
    have hstep : p.recordAll (notes ++ [d]) = (p.recordAll notes).record d :=
      recordAll_append notes [d] p
    have hmem := mem_diagnostics_recordAll (e := d) notes p
    rw [hstep, record]
    by_cases hd : d ∈ p.diagnostics
    · have hcontains := List.contains_iff_mem.mpr (hmem.mpr (Or.inl hd))
      rw [if_pos hcontains, ih, List.filter_append]
      simp [hd]
    · have hfilter : (notes ++ [d]).filter (fun d => d ∉ p.diagnostics) =
          notes.filter (fun d => d ∉ p.diagnostics) ++ [d] := by simp [hd]
      have hnew : d ∈ notes.filter (fun d => d ∉ p.diagnostics) ↔ d ∈ notes := by simp [hd]
      rw [hfilter, eraseDups_concat]
      by_cases hseen : d ∈ notes
      · rw [if_pos (List.contains_iff_mem.mpr (hmem.mpr (Or.inr hseen))), if_pos (hnew.mpr hseen),
          ih]
      · have hcontains : ¬(p.recordAll notes).diagnostics.contains d = true := by
          rw [List.contains_iff_mem, hmem, not_or]
          exact ⟨hd, hseen⟩
        rw [if_neg hcontains, if_neg (mt hnew.mp hseen), ih, List.append_assoc]

/-- A fresh pass collects the notes without repetitions. -/
theorem diagnostics_recordAll (notes : List Diagnostic) :
    (recordAll notes {}).diagnostics = notes.eraseDups := by
  rw [diagnostics_recordAll_eq]
  simp

theorem declared_recordAll : ∀ (notes : List Diagnostic) (p : Pass),
    (p.recordAll notes).declared = p.declared
  | [], p => rfl
  | d :: notes, p => by
    have hrecord : (p.record d).declared = p.declared := by
      rw [record]
      split_ifs
      · rfl
      · rfl
    exact (declared_recordAll notes (p.record d)).trans hrecord

/-- Nothing changes if all of it was collected before. -/
theorem recordAll_of_forall_mem {notes : List Diagnostic} {p : Pass}
    (h : ∀ d ∈ notes, d ∈ p.diagnostics) : p.recordAll notes = p := by
  induction notes with
  | nil => rfl
  | cons d notes ih =>
    obtain ⟨hd, hnotes⟩ := List.forall_mem_cons.mp h
    have hrecord : p.record d = p := if_pos (List.contains_iff_mem.mpr hd)
    show (p.record d).recordAll notes = p
    rw [hrecord]
    exact ih hnotes

theorem recordAll_recordAll (notes : List Diagnostic) (p : Pass) :
    (p.recordAll notes).recordAll notes = p.recordAll notes := by
  apply recordAll_of_forall_mem
  intro d hd
  exact (mem_diagnostics_recordAll notes p).mpr (Or.inr hd)

end Pass

end OpenApiClient
