import OpenApiClient.Client.Diagnostic

/-!
# Values and diagnostics of noted computations

A noted computation is a value with a list of diagnostics. These equations read both off a
computation that is put together of others, so that proofs about values never see diagnostics and
the other way round. A pass collects exactly the diagnostics that were noted
(`mem_diagnostics_recordAll`).
-/

namespace OpenApiClient

namespace Noted

variable {α β : Type}

@[simp] theorem value_pure (a : α) : (pure a : Noted α).value = a := rfl

@[simp] theorem notes_pure (a : α) : (pure a : Noted α).notes = [] := rfl

@[simp] theorem value_bind (x : Noted α) (f : α → Noted β) :
    (x >>= f).value = (f x.value).value := rfl

@[simp] theorem notes_bind (x : Noted α) (f : α → Noted β) :
    (x >>= f).notes = x.notes ++ (f x.value).notes := rfl

theorem value_each (f : α → Noted β) : ∀ as : List α,
    (each f as).value = as.map fun a => (f a).value
  | [] => rfl
  | a :: as => congrArg ((f a).value :: ·) (value_each f as)

theorem notes_each (f : α → Noted β) : ∀ as : List α,
    (each f as).notes = as.flatMap fun a => (f a).notes
  | [] => rfl
  | a :: as => by simp [each, notes_each f as]

end Noted

namespace Pass

theorem mem_diagnostics_record {d e : Diagnostic} {p : Pass} :
    e ∈ (p.record d).diagnostics ↔ e ∈ p.diagnostics ∨ e = d := by
  by_cases h : p.diagnostics.contains d = true
  · simp only [record, if_pos h]
    constructor
    · exact Or.inl
    · rintro (he | rfl)
      · exact he
      · exact List.contains_iff_mem.mp h
  · rw [record, if_neg h]
    simp

theorem mem_diagnostics_recordAll {e : Diagnostic} : ∀ (ds : List Diagnostic) (p : Pass),
    e ∈ (p.recordAll ds).diagnostics ↔ e ∈ p.diagnostics ∨ e ∈ ds
  | [], p => by simp [recordAll]
  | d :: ds, p => by
    have ih := mem_diagnostics_recordAll (e := e) ds (p.record d)
    rw [mem_diagnostics_record, or_assoc] at ih
    rw [List.mem_cons]
    exact ih

end Pass

end OpenApiClient
