import Mathlib.Data.List.Basic
import OpenApiClient.Proofs.Document.Restricted
import OpenApiClient.Proofs.Modules.Groups
import OpenApiClient.Proofs.Types.Dependence

/-!
# Selecting before grouping

A client is generated from the selected operations of a document, and of the groups of these only
the retained ones become modules. Selecting first makes no difference (`selection_redundant`): the
operations of a retained group are all selected, so that the retained groups are the same, in the
same order, and source files take nothing else from the paths of a document.
-/

namespace OpenApiClient

namespace Selection

/-- The client operations of a selection are the selected client operations. -/
theorem clientEndpoints_select (s : Selection) (d : Document) :
    (d.select s).clientEndpoints = d.clientEndpoints.filter fun e => s.keeps e.operation := by
  rw [Document.clientEndpoints_eq, Document.clientEndpoints_eq, Document.select,
    Document.endpoints_restrict]
  exact List.filter_comm _ _ d.endpoints

/-- The operations of retained groups are selected. -/
theorem keeps_of_isRetained {outputTags excludeTags : List String} {op : Operation}
    (h : Groups.isRetained outputTags excludeTags op.primaryTag = true) :
    Selection.keeps ⟨outputTags, excludeTags⟩ op = true := by
  rw [keeps]
  rcases Bool.or_eq_true_iff.mp h with hdefault | hchosen
  · rw [hdefault, Bool.true_or]
  · obtain ⟨hwanted, hunwanted⟩ := Bool.and_eq_true_iff.mp hchosen
    by_cases hdefault : op.primaryTag = defaultTag
    · simp [hdefault]
    · -- a primary tag that is not the default one is the first of the tags
      have hmem : op.primaryTag ∈ op.tags := by
        cases htags : op.tags with
        | nil => exact absurd (by simp [Operation.primaryTag, htags]) hdefault
        | cons tag tags => simp [Operation.primaryTag, htags]
      have hany : (outputTags.isEmpty || op.tags.any outputTags.contains) = true := by
        rcases Bool.or_eq_true_iff.mp hwanted with hnone | hcontains
        · rw [hnone, Bool.true_or]
        · exact Bool.or_eq_true_iff.mpr (Or.inr (List.any_eq_true.mpr ⟨_, hmem, hcontains⟩))
      rw [hany, hunwanted, Bool.and_true, Bool.or_true]

end Selection

/-! ## Retained groups -/

namespace Groups

variable {outputTags excludeTags : List String}

/-- Groups of which only some are retained may be made of fewer operations. -/
theorem retain_ofEndpoints_filter {keeps : Endpoint → Bool} (endpoints : List Endpoint)
    (h : ∀ e, isRetained outputTags excludeTags e.operation.primaryTag = true → keeps e = true) :
    retain outputTags excludeTags (ofEndpoints (endpoints.filter keeps)) =
      retain outputTags excludeTags (ofEndpoints endpoints) := by
  have htags : (tagsOf (endpoints.filter keeps)).filter (isRetained outputTags excludeTags) =
      (tagsOf endpoints).filter (isRetained outputTags excludeTags) := by
    rw [tagsOf, tagsOf, filter_eraseDups, filter_eraseDups, List.filter_map, List.filter_map,
      List.filter_filter]
    refine congrArg (fun es => (List.map _ es).eraseDups) (List.filter_congr fun e _ => ?_)
    cases hretained : isRetained outputTags excludeTags e.operation.primaryTag with
    | true => simp [hretained, h e hretained]
    | false => simp [hretained]
  have hmembers : ∀ tag ∈ (tagsOf endpoints).filter (isRetained outputTags excludeTags),
      membersOf (endpoints.filter keeps) tag = membersOf endpoints tag := by
    intro tag htag
    have hretained := (List.mem_filter.mp htag).2
    rw [membersOf, membersOf, List.filter_filter]
    refine List.filter_congr fun e _ => ?_
    by_cases heq : e.operation.primaryTag = tag
    · simp [heq, h e (heq ▸ hretained)]
    · simp [heq]
  rw [retain_ofEndpoints, retain_ofEndpoints, htags]
  exact List.map_congr_left fun tag htag => by rw [hmembers tag htag]

theorem isRetained_iff {tag : String} : isRetained outputTags excludeTags tag = true ↔
    tag = defaultTag ∨ (outputTags = [] ∨ tag ∈ outputTags) ∧ tag ∉ excludeTags := by
  simp [isRetained]

theorem mem_retain {groups : Groups} {group : String × List Endpoint} :
    group ∈ retain outputTags excludeTags groups ↔
      group ∈ groups ∧ (group.1 = defaultTag ∨
        (outputTags = [] ∨ group.1 ∈ outputTags) ∧ group.1 ∉ excludeTags) := by
  rw [retain, List.mem_filter, isRetained_iff]

end Groups

theorem Document.groups_select (d : Document) (outputTags excludeTags : List String) :
    (d.select ⟨outputTags, excludeTags⟩).groups.retain outputTags excludeTags =
      d.groups.retain outputTags excludeTags := by
  rw [groups, Selection.clientEndpoints_select]
  exact Groups.retain_ofEndpoints_filter _ fun _ => Selection.keeps_of_isRetained

namespace Client

/-- The source files of a document from which no operations are selected beforehand. -/
def unselectedSources (c : Config) (d : Document) : Noted (List SourceUnit) := do
  units c d (← plans c d)

/-- The client of these source files. -/
def generateUnselected (c : Config) (d : Document) : Client :=
  ⟨(unselectedSources c d).value.map SourceUnit.file,
    (Pass.recordAll (unselectedSources c d).notes {}).diagnostics⟩

theorem sources_eq (c : Config) (d : Document) : sources c d = unselectedSources c d := by
  unfold sources selected unselectedSources
  split_ifs
  · rfl
  · have hplans : plans c (d.select ⟨c.outputTags, c.excludeTags⟩) = plans c d := by
      rw [plans, plans, Document.groups_select]
    have hschemas : (d.select ⟨c.outputTags, c.excludeTags⟩).schemas = d.schemas := rfl
    have hunits := units_eq c hschemas
    simp only [hplans, hunits]

theorem schemas_selected (c : Config) (d : Document) : (selected c d).schemas = d.schemas := by
  unfold selected
  split_ifs <;> rfl

/-- The retained groups do not depend on whether operations have been selected before. -/
theorem retain_selected (c : Config) (d : Document) :
    (selected c d).groups.retain c.outputTags c.excludeTags =
      d.groups.retain c.outputTags c.excludeTags := by
  unfold selected
  split_ifs
  · rfl
  · exact d.groups_select c.outputTags c.excludeTags

/-- **Selection.** The groups that are retained are the same for the selected operations and for all
operations of a document, so that the client is the one that would be generated without selecting.
If tags are asked for, every retained group but the default one is among them and not excluded, and
the default group is always retained. -/
theorem selection_redundant (d : Document) (outputTags excludeTags : List String) (c : Config) :
    (d.select ⟨outputTags, excludeTags⟩).groups.retain outputTags excludeTags =
        d.groups.retain outputTags excludeTags ∧
      generate c d = generateUnselected c d ∧
      structureOf (generate c d) = structureOf (generateUnselected c d) ∧
      (outputTags ≠ [] → ∀ group ∈ d.groups.retain outputTags excludeTags,
        (group.1 ∈ outputTags ∧ group.1 ∉ excludeTags) ∨ group.1 = defaultTag) ∧
      ∀ group ∈ d.groups, group.1 = defaultTag →
        group ∈ d.groups.retain outputTags excludeTags := by
  have hclient : generate c d = generateUnselected c d := by
    rw [generate, generateUnselected, sources_eq]
  refine ⟨d.groups_select outputTags excludeTags, hclient,
    congrArg structureOf hclient, ?_, ?_⟩
  · intro hwanted group hgroup
    rcases (Groups.mem_retain.mp hgroup).2 with hdefault | ⟨hnone | hmem, hexcluded⟩
    · exact Or.inr hdefault
    · exact absurd hnone hwanted
    · exact Or.inl ⟨hmem, hexcluded⟩
  · intro group hgroup hdefault
    exact Groups.mem_retain.mpr ⟨hgroup, Or.inl hdefault⟩

/-- A document with an operation that is selected by its second tag, one that is selected by its
first tag, and one without tags. -/
def mixedTags : Document where
  version := "3.0.0"
  info := ⟨"T", "1", none⟩
  paths := [("/a", ⟨[], [(.get, { (default : Operation) with tags := ["pets", "admin"] }),
    (.post, { (default : Operation) with tags := ["admin", "pets"] }), (.delete, default)],
    by decide⟩)]
  components := none
  tags := []

/-- Three groups are left by a selection, of which two are retained, and these are the groups that
are retained of the whole document. -/
theorem selection_redundant_mixedTags :
    ((mixedTags.select ⟨["admin"], []⟩).groups.map Prod.fst = ["pets", "admin", "default"]) ∧
      ((mixedTags.groups.retain ["admin"] []).map Prod.fst = ["admin", "default"]) ∧
      (mixedTags.select ⟨["admin"], []⟩).groups.retain ["admin"] [] =
        mixedTags.groups.retain ["admin"] [] ∧
      generate { Config.standard with outputTags := ["admin"] } mixedTags =
        generateUnselected { Config.standard with outputTags := ["admin"] } mixedTags := by
  obtain ⟨hgroups, hclient, -⟩ := selection_redundant mixedTags ["admin"] []
    { Config.standard with outputTags := ["admin"] }
  exact ⟨by decide, by decide, hgroups, hclient⟩

end Client

end OpenApiClient
