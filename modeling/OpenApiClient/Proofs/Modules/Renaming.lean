import OpenApiClient.Proofs.Names.Identifiers
import OpenApiClient.Proofs.Names.OperationTypes
import OpenApiClient.Proofs.Output.Segments
import OpenApiClient.Proofs.Repetitions

/-!
# Renamed functions

An operation asks for the base that its method and its path give, and gets it as it is or with a
number from two on (`claim_cases`). For those with a number, and only for those, a report is noted
(`notes_nameOperations`). As the names in the reports differ, no two of them are the same, so all of
them reach the user (`Named.nodup_renamedReports`).
-/

namespace OpenApiClient

theorem le_firstFree (used : List String) (nameOf : Nat → String) (fuel n : Nat) :
    n ≤ firstFree used nameOf fuel n := by
  induction fuel generalizing n with
  | zero => exact Nat.le_refl n
  | succ fuel ih =>
    rw [firstFree]
    split
    · exact Nat.le_of_succ_le (ih (n + 1))
    · exact Nat.le_refl n

namespace NameSupply

theorem numbered_ne (base : String) (n : Nat) : numbered base n ≠ base := by
  intro h
  have hlength := congrArg (fun s => s.toList.length) h
  simp [numbered] at hlength

/-- A claim gives the base that was asked for if its name is free, and else one with a number. -/
theorem claim_cases (base : String) (style : NameStyle) (s : NameSupply) :
    (s.claim base style).1 = ⟨base, false⟩ ∨
      ∃ n, 2 ≤ n ∧ (s.claim base style).1 = ⟨numbered base n, true⟩ := by
  by_cases h : s.contains (style.format base) = true
  · rw [claim, if_pos h]
    exact Or.inr ⟨_, le_firstFree _ _ _ 2, rfl⟩
  · rw [claim, if_neg h]
    exact Or.inl rfl

theorem claim_renamed (base : String) (style : NameStyle) (s : NameSupply) :
    (s.claim base style).1.renamed = ((s.claim base style).1.base != base) := by
  rcases claim_cases base style s with h | ⟨n, -, h⟩
  · rw [h]
    exact (bne_self_eq_false base).symm
  · rw [h]
    exact (bne_iff_ne.mpr (numbered_ne base n)).symm

end NameSupply

/-! ## Reports -/

def Diagnostic.isNaming (d : Diagnostic) : Bool :=
  d.stage == .naming

namespace PlannedOperation

def wantedBase (op : PlannedOperation) : String :=
  nameBase op.endpoint.method op.endpoint.path

/-- Whether an operation got another base than it asked for. -/
def isRenamed (op : PlannedOperation) : Bool :=
  op.names.base != op.wantedBase

/-- The report that an operation got another name than it asked for. -/
def renamedReport (functions : NameStyle) (op : PlannedOperation) : Diagnostic :=
  Plan.renamedNote op.endpoint (functions.format op.wantedBase) op.names.function

end PlannedOperation

namespace Plan

variable (functions types : NameStyle)

def renamedReports (ops : List PlannedOperation) : List Diagnostic :=
  (ops.filter PlannedOperation.isRenamed).map (PlannedOperation.renamedReport functions)

theorem renamedReports_append (ops ops' : List PlannedOperation) :
    renamedReports functions (ops ++ ops') =
      renamedReports functions ops ++ renamedReports functions ops' := by
  rw [renamedReports, List.filter_append, List.map_append]
  rfl

theorem notes_nameOperation (e : Endpoint) (s : NameSupply) :
    (nameOperation functions types e s).notes =
      renamedReports functions [(nameOperation functions types e s).value.1] := by
  have hrenamed := NameSupply.claim_renamed (nameBase e.method e.path) functions s
  generalize hclaim : s.claim (nameBase e.method e.path) functions = claim at hrenamed
  have hvalue : (nameOperation functions types e s).value.1 =
      ⟨e, Names.ofBase claim.1.base functions types⟩ := by
    rw [← hclaim]
    rfl
  have hnotes : (nameOperation functions types e s).notes =
      (Noted.noteIf claim.1.renamed (renamedNote e (functions.format (nameBase e.method e.path))
        (Names.ofBase claim.1.base functions types).function)).notes ++ [] := by
    rw [← hclaim]
    rfl
  have hfilter : renamedReports functions [(⟨e, Names.ofBase claim.1.base functions types⟩ :
      PlannedOperation)] = (Noted.noteIf (claim.1.base != nameBase e.method e.path)
        (renamedNote e (functions.format (nameBase e.method e.path))
          (Names.ofBase claim.1.base functions types).function)).notes := by
    cases hbase : claim.1.base != nameBase e.method e.path <;>
      simp [renamedReports, PlannedOperation.isRenamed, PlannedOperation.wantedBase,
        PlannedOperation.renamedReport, Names.ofBase, Noted.noteIf, Noted.note, hbase]
  rw [hnotes, hvalue, hrenamed, List.append_nil, hfilter]

/-- While operations are named, those that are renamed are reported, and nothing else. -/
theorem notes_nameOperations (endpoints : List Endpoint) (s : NameSupply) :
    (nameOperations functions types endpoints s).notes =
      renamedReports functions (nameOperations functions types endpoints s).value.1 := by
  induction endpoints generalizing s with
  | nil => rfl
  | cons e rest ih =>
    have hfirst := notes_nameOperation functions types e s
    generalize hnamed : nameOperation functions types e s = named at hfirst
    have hrest := ih named.value.2
    have hvalue : (nameOperations functions types (e :: rest) s).value.1 =
        [named.value.1] ++ (nameOperations functions types rest named.value.2).value.1 := by
      rw [← hnamed]
      rfl
    have hnotes : (nameOperations functions types (e :: rest) s).notes =
        named.notes ++ ((nameOperations functions types rest named.value.2).notes ++ []) := by
      rw [← hnamed]
      rfl
    rw [hnotes, hvalue, renamedReports_append, hfirst, hrest, List.append_nil]

theorem filter_isNaming_renamedReports (ops : List PlannedOperation) :
    (renamedReports functions ops).filter Diagnostic.isNaming = renamedReports functions ops := by
  rw [List.filter_eq_self]
  intro n hn
  obtain ⟨op, -, rfl⟩ := List.mem_map.mp hn
  rfl

theorem filter_isNaming_placeOf (tag : String) (taken : List String) :
    (placeOf tag taken).notes.filter Diagnostic.isNaming = [] := by
  unfold placeOf
  simp only
  split <;> rfl

/-- While modules are planned, no more is noted about names than that operations are renamed. -/
theorem filter_isNaming_modulesFrom (groups : Groups) (taken : List String) (s : NameSupply) :
    (modulesFrom functions types groups taken s).notes.filter Diagnostic.isNaming =
      renamedReports functions
        ((modulesFrom functions types groups taken s).value.flatMap ModulePlan.operations) := by
  induction groups generalizing taken s with
  | nil => rfl
  | cons group rest ih =>
    obtain ⟨tag, endpoints⟩ := group
    have hplace := filter_isNaming_placeOf tag taken
    have hnamed := notes_nameOperations functions types endpoints s
    generalize hp : placeOf tag taken = place at hplace
    generalize hn : nameOperations functions types endpoints s = named at hnamed
    have hvalue : (modulesFrom functions types ((tag, endpoints) :: rest) taken s).value =
        ⟨tag, place.value.1, named.value.1⟩ ::
          (modulesFrom functions types rest place.value.2 named.value.2).value := by
      rw [← hp, ← hn]
      rfl
    have hnotes : (modulesFrom functions types ((tag, endpoints) :: rest) taken s).notes =
        place.notes ++ (named.notes ++
          ((modulesFrom functions types rest place.value.2 named.value.2).notes ++ [])) := by
      rw [← hp, ← hn]
      rfl
    rw [hvalue, hnotes, List.flatMap_cons, renamedReports_append, List.append_nil,
      List.filter_append, List.filter_append, hplace, ih, hnamed, filter_isNaming_renamedReports]
    rfl

/-! ## No report is the same as another -/

theorem mark_not_mem_of_isWord {name : String} (h : Code.isWord name = true) :
    '\x60' ∉ name.toList := by
  intro hmem
  exact absurd (Code.isWordChar_of_isWord h hmem) (by decide)

/-- The name that a function got is read off the report. -/
theorem splitOn_message_renamedNote (e : Endpoint) {wanted actual : String}
    (hwanted : '\x60' ∉ wanted.toList) (hactual : '\x60' ∉ actual.toList) :
    Text.splitOn '\x60' (renamedNote e wanted actual).message.toList =
      ["function name ".toList, wanted.toList, " is already used, renamed to ".toList,
        actual.toList, []] := by
  have hmessage : (renamedNote e wanted actual).message.toList =
      "function name ".toList ++ '\x60' :: (wanted.toList ++ '\x60' ::
        (" is already used, renamed to ".toList ++ '\x60' :: (actual.toList ++ '\x60' :: []))) := by
    simp [renamedNote]
  rw [hmessage, Text.splitOn_append (by decide), Text.splitOn_append hwanted,
    Text.splitOn_append (by decide), Text.splitOn_append hactual]
  rfl

theorem Named.function_eq {functions types : NameStyle} {before : List String}
    {ops : List PlannedOperation} (h : Named functions types before ops) {op : PlannedOperation}
    (hop : op ∈ ops) : op.names.function = functions.format op.names.base :=
  congrArg Names.function (h.ofBase op hop)

/-- Operations that were named one after another are reported one by one. -/
theorem Named.nodup_renamedReports {functions types : NameStyle} {before : List String}
    {ops : List PlannedOperation} (h : Named functions types before ops) :
    (renamedReports functions ops).Nodup := by
  have hword {op : PlannedOperation} (hop : op ∈ ops) : '\x60' ∉ op.names.function.toList := by
    rw [h.function_eq hop]
    exact mark_not_mem_of_isWord (NameStyle.isWord_format functions _)
  have hwanted (op : PlannedOperation) : '\x60' ∉ (functions.format op.wantedBase).toList :=
    mark_not_mem_of_isWord (NameStyle.isWord_format functions _)
  have hdistinct : (ops.filter PlannedOperation.isRenamed).Pairwise fun p q =>
      p.renamedReport functions ≠ q.renamedReport functions := by
    refine (h.distinct.imp_of_mem fun {p q} hp hq hne heq => hne ?_).filter _
    -- one report would give both functions one name
    have hmessage := congrArg (fun d => Text.splitOn '\x60' d.message.toList) heq
    simp only [PlannedOperation.renamedReport,
      splitOn_message_renamedNote _ (hwanted p) (hword hp),
      splitOn_message_renamedNote _ (hwanted q) (hword hq), List.cons.injEq, String.toList_inj,
      true_and, and_true] at hmessage
    rw [← h.function_eq hp, ← h.function_eq hq]
    exact hmessage.2
  exact List.pairwise_map.mpr hdistinct

end Plan

end OpenApiClient
