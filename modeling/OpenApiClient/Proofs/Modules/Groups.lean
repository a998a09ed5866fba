import OpenApiClient.Client.Plan
import OpenApiClient.Proofs.Repetitions

/-!
# Groups and modules

The groups of operations are the classes of operations with one primary tag, in the order in which
the tags come first, each with its operations in the order of the document (`ofEndpoints_eq`). Every
group that is retained becomes one module with the operations of the group (`groups_modules`).
-/

namespace OpenApiClient

namespace Groups

/-- The primary tags of operations, in the order in which they come first. -/
def tagsOf (endpoints : List Endpoint) : List String :=
  (endpoints.map fun e => e.operation.primaryTag).eraseDups

def membersOf (endpoints : List Endpoint) (tag : String) : List Endpoint :=
  endpoints.filter fun e => e.operation.primaryTag = tag

theorem membersOf_concat (endpoints : List Endpoint) (e : Endpoint) (tag : String) :
    membersOf (endpoints ++ [e]) tag =
      if e.operation.primaryTag = tag then membersOf endpoints tag ++ [e]
      else membersOf endpoints tag := by
  unfold membersOf
  by_cases h : e.operation.primaryTag = tag
  · rw [if_pos h, List.filter_append]
    simp [h]
  · rw [if_neg h, List.filter_append]
    simp [h]

theorem membersOf_eq_nil {endpoints : List Endpoint} {tag : String}
    (h : tag ∉ tagsOf endpoints) : membersOf endpoints tag = [] := by
  rw [membersOf, List.filter_eq_nil_iff]
  intro e he heq
  rw [decide_eq_true_eq] at heq
  refine h (List.mem_eraseDups.mpr (List.mem_map.mpr ⟨e, he, heq⟩))

/-- An operation goes into the group of its tag, or into a new one at the end. -/
theorem insert_map (endpoints : List Endpoint) (e : Endpoint) {tags : List String}
    (hnodup : tags.Nodup) :
    insert e (tags.map fun tag => (tag, membersOf endpoints tag)) =
      (tags.map fun tag => (tag, membersOf (endpoints ++ [e]) tag)) ++
        (if e.operation.primaryTag ∈ tags then [] else [(e.operation.primaryTag, [e])]) := by
  induction tags with
  | nil => rfl
  | cons tag tags ih =>
    obtain ⟨htag, htags⟩ := List.nodup_cons.mp hnodup
    rw [List.map_cons, List.map_cons, insert, membersOf_concat endpoints e tag]
    by_cases h : tag = e.operation.primaryTag
    · -- no later group has the tag
      have hrest : (tags.map fun t => (t, membersOf (endpoints ++ [e]) t)) =
          tags.map fun t => (t, membersOf endpoints t) := by
        refine List.map_congr_left fun t ht => ?_
        have hne : e.operation.primaryTag ≠ t := fun heq => htag (h.trans heq ▸ ht)
        rw [membersOf_concat, if_neg hne]
      have hmem : e.operation.primaryTag ∈ tag :: tags := h ▸ List.mem_cons_self
      rw [if_pos h, if_pos h.symm, if_pos hmem, hrest, List.append_nil]
    · have hmem : e.operation.primaryTag ∈ tag :: tags ↔ e.operation.primaryTag ∈ tags := by
        simp [Ne.symm h]
      rw [if_neg h, if_neg (Ne.symm h), ih htags]
      simp only [hmem, List.cons_append]

/-- Groups are the classes of operations with one primary tag. -/
theorem ofEndpoints_eq (endpoints : List Endpoint) :
    ofEndpoints endpoints = (tagsOf endpoints).map fun tag => (tag, membersOf endpoints tag) := by
  induction endpoints using List.reverseRecOn with
  | nil => rfl
  | append_singleton endpoints e ih =>
    have hstep : ofEndpoints (endpoints ++ [e]) = insert e (ofEndpoints endpoints) := by
      rw [ofEndpoints, List.foldl_append]
      rfl
    have htags : tagsOf (endpoints ++ [e]) =
        if e.operation.primaryTag ∈ tagsOf endpoints then tagsOf endpoints
        else tagsOf endpoints ++ [e.operation.primaryTag] := by
      simp only [tagsOf, List.map_append, List.map_singleton, eraseDups_concat, List.mem_eraseDups]
    have hnodup : (tagsOf endpoints).Nodup := nodup_eraseDups _
    rw [hstep, ih, insert_map endpoints e hnodup, htags]
    by_cases h : e.operation.primaryTag ∈ tagsOf endpoints
    · rw [if_pos h, if_pos h, List.append_nil]
    · rw [if_neg h, if_neg h, List.map_append, List.map_singleton, membersOf_concat, if_pos rfl,
        membersOf_eq_nil h]
      rfl

/-- Groups are retained by their tags. -/
theorem retain_ofEndpoints (outputTags excludeTags : List String) (endpoints : List Endpoint) :
    retain outputTags excludeTags (ofEndpoints endpoints) =
      ((tagsOf endpoints).filter (isRetained outputTags excludeTags)).map fun tag =>
        (tag, membersOf endpoints tag) := by
  rw [retain, ofEndpoints_eq, List.filter_map]
  rfl

end Groups

def ModulePlan.group (m : ModulePlan) : String × List Endpoint :=
  (m.tag, m.operations.map PlannedOperation.endpoint)

namespace Plan

theorem endpoints_nameOperations (functions types : NameStyle) (endpoints : List Endpoint)
    (s : NameSupply) :
    ((nameOperations functions types endpoints s).value.1).map PlannedOperation.endpoint =
      endpoints := by
  induction endpoints generalizing s with
  | nil => rfl
  | cons e rest ih => exact congrArg (e :: ·) (ih _)

theorem groups_modulesFrom (functions types : NameStyle) (groups : Groups) (taken : List String)
    (s : NameSupply) :
    (modulesFrom functions types groups taken s).value.map ModulePlan.group = groups := by
  induction groups generalizing taken s with
  | nil => rfl
  | cons group rest ih =>
    obtain ⟨tag, endpoints⟩ := group
    have hfirst := endpoints_nameOperations functions types endpoints s
    exact congrArg₂ (fun es groups => (tag, es) :: groups) hfirst (ih _ _)

/-- Every group becomes a module with its operations. -/
theorem groups_modules (c : Config) (groups : Groups) :
    (modules c groups).value.map ModulePlan.group = groups :=
  groups_modulesFrom _ _ groups _ _

end Plan

end OpenApiClient
