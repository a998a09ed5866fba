import OpenApiClient.Proofs.Modules.Groups
import OpenApiClient.Proofs.Modules.Renaming
import OpenApiClient.Proofs.Modules.Selection
import OpenApiClient.Proofs.Types.Defined
import OpenApiClient.Proofs.Types.Notes

/-!
# The functions of a client

Every operation that a client can call becomes one function in one module, under a name of its own
(`functions_emitted`). Operations are grouped by primary tags; each retained group is a module, with
one function for each of its operations, and no other file but the request helper has functions.
The names differ after formatting, and changing a reserved word keeps them apart. Who got another
name than the operation asks for is reported.
-/

namespace OpenApiClient

namespace Plan.Named

variable {functions types : NameStyle} {before : List String} {ops : List PlannedOperation}

theorem functionName_eq (h : Named functions types before ops) {op : PlannedOperation}
    (hop : op ∈ ops) : op.functionName = Code.safeName (functions.format op.names.base) := by
  rw [PlannedOperation.functionName, h.function_eq hop]

/-- Functions have names that can be declared. -/
theorem isDeclarable (h : Named functions types before ops) {op : PlannedOperation}
    (hop : op ∈ ops) : Code.IsDeclarable op.functionName := by
  rw [h.functionName_eq hop]
  exact Code.isDeclarable_safeName functions (h.isBase op hop)

/-- No two functions have one name. -/
theorem nodup_functionNames (h : Named functions types before ops) :
    (ops.map PlannedOperation.functionName).Nodup := by
  refine List.pairwise_map.mpr (h.distinct.imp_of_mem fun {p q} hp hq hne heq => hne ?_)
  rw [h.functionName_eq hp, h.functionName_eq hq] at heq
  exact Code.safeName_injective functions (h.isBase p hp) (h.isBase q hq) heq

end Plan.Named

namespace Plan

variable (functions types : NameStyle)

/-- A base is the one that was asked for, as it is or with a number from two on. -/
theorem base_nameOperations (endpoints : List Endpoint) (s : NameSupply) :
    ∀ op ∈ (nameOperations functions types endpoints s).value.1,
      op.names.base = op.wantedBase ∨
        ∃ n, 2 ≤ n ∧ op.names.base = NameSupply.numbered op.wantedBase n := by
  induction endpoints generalizing s with
  | nil =>
    intro op hop
    exact absurd hop List.not_mem_nil
  | cons e rest ih =>
    rintro op (_ | ⟨_, hop⟩)
    · show (s.claim (nameBase e.method e.path) functions).1.base = nameBase e.method e.path ∨ ∃ n,
        2 ≤ n ∧ (s.claim (nameBase e.method e.path) functions).1.base =
          NameSupply.numbered (nameBase e.method e.path) n
      rcases NameSupply.claim_cases (nameBase e.method e.path) functions s with h | ⟨n, hn, h⟩
      · exact Or.inl (congrArg Claimed.base h)
      · exact Or.inr ⟨n, hn, congrArg Claimed.base h⟩
    · exact ih _ op hop

end Plan

namespace Client

variable (c : Config) (d : Document)

def functionOf (m : ModulePlan) (op : PlannedOperation) : Code.Function :=
  op.clientFunction c (typingOf c m)
    (RequestShape.of (c.typeContext (selected c d)) op).value

/-- The functions of the request helper, if there is one. -/
def helperFunctions : List Code.Function :=
  if c.generateUtils then (RequestHelper.unit c c.language).source.functions else []

theorem functions_typesUnit (plans : List ModulePlan) :
    (typesUnit c d plans).value.source.functions = [] := by
  show (List.map Code.Item.declaration _).filterMap Code.Item.function? = []
  simp [List.filterMap_map, Function.comp_def]

/-- No source file but the request helper and the modules has functions. -/
theorem functions_sources :
    (sources c d).value.flatMap (fun u => u.source.functions) =
      helperFunctions c ++
        (modulePlans c d).flatMap fun m => m.operations.map (functionOf c d m) := by
  have htypes : (if hasTypesFile c then
      [(typesUnit c (selected c d) (modulePlans c d)).value] else []).flatMap
        (fun u => u.source.functions) = [] := by
    split_ifs
    · rw [List.flatMap_singleton, functions_typesUnit]
    · rfl
  have hhelper : (if c.generateUtils then [RequestHelper.unit c c.language] else []).flatMap
      (fun u => u.source.functions) = helperFunctions c := by
    unfold helperFunctions
    split_ifs
    · rw [List.flatMap_singleton]
    · rfl
  have hmodules : ((modulePlans c d).map fun m => (moduleUnit c (selected c d) m).value).flatMap
      (fun u => u.source.functions) =
        (modulePlans c d).flatMap fun m => m.operations.map (functionOf c d m) := by
    rw [List.flatMap_map]
    exact List.flatMap_congr fun m _ => functions_moduleUnit c (selected c d) m
  have hindex : (if c.generateIndex then [indexUnit c (modulePlans c d)] else []).flatMap
      (fun u => u.source.functions) = [] := by
    split_ifs <;> rfl
  rw [value_sources, List.flatMap_append, List.flatMap_append, List.flatMap_append, htypes,
    hhelper, hmodules, hindex, List.nil_append, List.append_nil]

/-! ## Operations of a client -/

def plannedOperations : List PlannedOperation :=
  (modulePlans c d).flatMap ModulePlan.operations

theorem named_plannedOperations :
    Plan.Named c.functionNaming c.typeNaming [] (plannedOperations c d) :=
  Plan.named_operations c _

theorem base_plannedOperations {op : PlannedOperation} (hop : op ∈ plannedOperations c d) :
    op.names.base = op.wantedBase ∨
      ∃ n, 2 ≤ n ∧ op.names.base = NameSupply.numbered op.wantedBase n := by
  rw [plannedOperations, modulePlans, plans, Plan.modules, Plan.operations_modulesFrom] at hop
  exact Plan.base_nameOperations _ _ _ _ op hop

/-- The diagnostics about names are the reports of renamed operations. -/
theorem filter_isNaming_diagnostics :
    (generate c d).diagnostics.filter Diagnostic.isNaming =
      Plan.renamedReports c.functionNaming (plannedOperations c d) := by
  have hplans : (plans c (selected c d)).notes.filter Diagnostic.isNaming =
      Plan.renamedReports c.functionNaming (plannedOperations c d) :=
    Plan.filter_isNaming_modulesFrom _ _ _ _ _
  have hunits :
      (units c (selected c d) (modulePlans c d)).notes.filter Diagnostic.isNaming = [] := by
    rw [List.filter_eq_nil_iff]
    intro n hn hnaming
    have hstage : n.stage = .types := aboutTypes_units c (selected c d) (modulePlans c d) n hn
    rw [Diagnostic.isNaming, hstage] at hnaming
    exact absurd hnaming (by decide)
  have hnotes : (sources c d).notes =
      (plans c (selected c d)).notes ++ (units c (selected c d) (modulePlans c d)).notes := rfl
  show (Pass.recordAll (sources c d).notes {}).diagnostics.filter Diagnostic.isNaming = _
  rw [Pass.diagnostics_recordAll, filter_eraseDups, hnotes, List.filter_append, hplans, hunits,
    List.append_nil]
  exact eraseDups_of_nodup (named_plannedOperations c d).nodup_renamedReports

theorem groups_modulePlans : (modulePlans c d).map ModulePlan.group =
    ((Groups.tagsOf d.calls).filter fun tag => tag = defaultTag ∨
      (c.outputTags = [] ∨ tag ∈ c.outputTags) ∧ tag ∉ c.excludeTags).map fun tag =>
        (tag, Groups.membersOf d.calls tag) := by
  have hgroups : (modulePlans c d).map ModulePlan.group =
      (selected c d).groups.retain c.outputTags c.excludeTags :=
    Plan.groups_modules c _
  rw [hgroups, retain_selected, Document.groups, Document.clientEndpoints_eq_calls,
    Groups.retain_ofEndpoints]
  refine congrArg (List.map _) (List.filter_congr fun tag _ => ?_)
  rw [Bool.eq_iff_iff, Groups.isRetained_iff, decide_eq_true_iff]

/-- What holds of the functions of a client. The modules are those of the retained tags, in the
order in which the tags come first, each with the operations of its tag in the order of the
document. A module has one function for each of its operations, and there are no other functions but
that of the request helper. The functions of all modules have different names, which can be
declared. A name comes from the base that the operation asks for, as it is or with a number, and the
diagnostics about names report those with a number, one by one. -/
structure EmitsFunctions : Prop where
  modules : (modulePlans c d).map ModulePlan.group =
    ((Groups.tagsOf d.calls).filter fun tag => tag = defaultTag ∨
      (c.outputTags = [] ∨ tag ∈ c.outputTags) ∧ tag ∉ c.excludeTags).map fun tag =>
        (tag, Groups.membersOf d.calls tag)
  functions : ∀ m ∈ modulePlans c d, (moduleUnit c (selected c d) m).value ∈ (sources c d).value ∧
    (moduleUnit c (selected c d) m).value.source.functions = m.operations.map (functionOf c d m)
  others : (sources c d).value.flatMap (fun u => u.source.functions) = helperFunctions c ++
    (modulePlans c d).flatMap fun m => (moduleUnit c (selected c d) m).value.source.functions
  distinct : ((modulePlans c d).flatMap fun m =>
    (moduleUnit c (selected c d) m).value.source.functions.map Code.Function.name).Nodup
  declarable : ∀ m ∈ modulePlans c d,
    ∀ f ∈ (moduleUnit c (selected c d) m).value.source.functions, Code.IsDeclarable f.name
  bases : ∀ op ∈ plannedOperations c d, op.names.base = op.wantedBase ∨
    ∃ n, 2 ≤ n ∧ op.names.base = NameSupply.numbered op.wantedBase n
  reports : (generate c d).diagnostics.filter Diagnostic.isNaming =
    ((plannedOperations c d).filter PlannedOperation.isRenamed).map
      (PlannedOperation.renamedReport c.functionNaming)

/-- **Client functions.** Every operation of a retained group becomes one function in one module, in
the order of the groups, under a name that is its own; and who is renamed is reported. -/
theorem functions_emitted (c : Config) (d : Document) : EmitsFunctions c d := by
  have hnamed := named_plannedOperations c d
  have hfunctions (m : ModulePlan) : (moduleUnit c (selected c d) m).value.source.functions =
      m.operations.map (functionOf c d m) :=
    functions_moduleUnit c (selected c d) m
  have hnames (m : ModulePlan) :
      (moduleUnit c (selected c d) m).value.source.functions.map Code.Function.name =
        m.operations.map PlannedOperation.functionName := by
    rw [hfunctions, List.map_map]
    rfl
  constructor
  case modules => exact groups_modulePlans c d
  case functions =>
    intro m hm
    exact ⟨moduleUnit_mem_sources hm, hfunctions m⟩
  case others =>
    rw [functions_sources]
    exact congrArg (helperFunctions c ++ ·) (List.flatMap_congr fun m _ => (hfunctions m).symm)
  case distinct =>
    have hflat : ((modulePlans c d).flatMap fun m =>
        (moduleUnit c (selected c d) m).value.source.functions.map Code.Function.name) =
          (plannedOperations c d).map PlannedOperation.functionName := by
      rw [plannedOperations, List.map_flatMap]
      exact List.flatMap_congr fun m _ => hnames m
    rw [hflat]
    exact hnamed.nodup_functionNames
  case declarable =>
    intro m hm f hf
    rw [hfunctions] at hf
    obtain ⟨op, hop, rfl⟩ := List.mem_map.mp hf
    exact hnamed.isDeclarable (List.mem_flatMap.mpr ⟨m, hm, hop⟩)
  case bases =>
    intro op hop
    exact base_plannedOperations c d hop
  case reports => exact filter_isNaming_diagnostics c d

end Client

end OpenApiClient
