import OpenApiClient.Proofs.Repetitions

/-!
# Computations in a pass

A noted computation lists its diagnostics, and a pass collects them afterwards. A computation in a
pass hands the pass on from step to step and records each diagnostic where it comes up. Carrying out
a noted computation in a pass (`Noted.run`) respects the ways in which computations are put together
(`run_bind`, `run_note`, `run_each`), so the two come to the same.

`Recomputes` says that such a computation may be repeated at will: its value does not depend on the
pass, of the pass it only extends the diagnostics, by what it has to report and was not recorded
before, and a second time it changes nothing.
-/

namespace OpenApiClient

def Pass.report (d : Diagnostic) : StateM Pass Unit :=
  modify (Pass.record d)

/-- Records a diagnostic only if a condition holds. -/
def Pass.reportIf (condition : Bool) (d : Diagnostic) : StateM Pass Unit :=
  if condition then Pass.report d else pure ()

namespace Noted

variable {α β : Type}

/-- The computation that gives the value and has its diagnostics collected by the pass. -/
def run (x : Noted α) : StateM Pass α :=
  fun p => (x.value, p.recordAll x.notes)

theorem run_pure (a : α) : (pure a : Noted α).run = pure a := rfl

theorem run_note (d : Diagnostic) : (note d).run = Pass.report d := rfl

theorem run_noteIf (condition : Bool) (d : Diagnostic) :
    (noteIf condition d).run = Pass.reportIf condition d := by
  cases condition with
  | true => rfl
  | false => rfl

theorem run_bind (x : Noted α) (f : α → Noted β) :
    (x >>= f).run = x.run >>= fun a => (f a).run := by
  funext p
  show ((f x.value).value, p.recordAll (x.notes ++ (f x.value).notes)) =
    ((f x.value).value, (p.recordAll x.notes).recordAll (f x.value).notes)
  rw [Pass.recordAll_append]

theorem run_each (f : α → Noted β) (as : List α) :
    (each f as).run = as.mapM fun a => (f a).run := by
  induction as with
  | nil => rfl
  | cons a as ih =>
    rw [each, run_bind, List.mapM_cons]
    congr 1
    funext b
    rw [run_bind, ih]
    rfl

end Noted

/-- A computation in a pass carries out a noted one and may be repeated: whatever the pass, it has the
same value; the declared names stay, and after the diagnostics come those that are reported and were
not recorded before, each once; and in the pass after it, it changes nothing. -/
structure Recomputes {α : Type} (noted : Noted α) (computation : StateM Pass α)
    (Reported : Diagnostic → Prop) : Prop where
  carriesOut : noted.run = computation
  value : ∀ p q : Pass, (computation.run p).1 = (computation.run q).1
  declared : ∀ p : Pass, (computation.run p).2.declared = p.declared
  appends : ∀ p : Pass, ∃ new : List Diagnostic,
    (computation.run p).2.diagnostics = p.diagnostics ++ new ∧ new.Nodup ∧
      ∀ d, d ∈ new ↔ Reported d ∧ d ∉ p.diagnostics
  again : ∀ p : Pass, computation.run (computation.run p).2 = computation.run p

theorem recomputes_of_run {α : Type} {noted : Noted α} {computation : StateM Pass α}
    {Reported : Diagnostic → Prop} (hrun : noted.run = computation)
    (hreported : ∀ d, d ∈ noted.notes ↔ Reported d) :
    Recomputes noted computation Reported := by
  subst hrun
  constructor
  case carriesOut => rfl
  case value =>
    intro p q
    rfl
  case declared =>
    intro p
    exact Pass.declared_recordAll noted.notes p
  case appends =>
    intro p
    refine ⟨_, Pass.diagnostics_recordAll_eq noted.notes p, nodup_eraseDups _, ?_⟩
    intro d
    rw [List.mem_eraseDups, List.mem_filter, hreported, decide_eq_true_eq]
  case again =>
    intro p
    exact congrArg (Prod.mk noted.value) (Pass.recordAll_recordAll noted.notes p)

end OpenApiClient
