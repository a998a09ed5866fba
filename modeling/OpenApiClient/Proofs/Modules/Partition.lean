import Mathlib.Data.List.Perm.Basic
import OpenApiClient.Proofs.Document.Places
import OpenApiClient.Proofs.Modules.Groups

/-!
# The groups divide the operations

The operations that a client can call are divided by their primary tags: every operation is in
exactly one group, a group has its operations in the order of the document, and the groups stand in
the order in which their tags come first (`Groups.Divide`). This holds of the groups of any
operations (`divide_ofEndpoints`) and of no other groups (`Divide.unique`), and for a document these
are all operations for the methods of clients, each once (`groups_divide`).
-/

namespace OpenApiClient

section Keys

variable {α β : Type} [DecidableEq α]

/-- Without repetitions, items stand in the order in which they come first. -/
theorem pairwise_idxOf_eraseDups (as : List α) :
    as.eraseDups.Pairwise fun a b => as.idxOf a < as.idxOf b := by
  induction as using List.reverseRecOn with
  | nil => exact List.Pairwise.nil
  | append_singleton as b ih =>
    -- one more item at the end changes the place of no item before it
    have hplace : ∀ a ∈ as.eraseDups, (as ++ [b]).idxOf a = as.idxOf a := fun a ha =>
      List.idxOf_append_of_mem (List.mem_eraseDups.mp ha)
    have hbefore : as.eraseDups.Pairwise fun a a' =>
        (as ++ [b]).idxOf a < (as ++ [b]).idxOf a' :=
      ih.imp_of_mem fun ha ha' hlt => by rwa [hplace _ ha, hplace _ ha']
    rw [eraseDups_concat]
    split_ifs with hb
    · exact hbefore
    · refine List.pairwise_append.mpr ⟨hbefore, List.pairwise_singleton _ b, ?_⟩
      intro a ha b' hb'
      rw [List.mem_singleton.mp hb', hplace a ha, List.idxOf_append_of_notMem hb]
      exact Nat.lt_of_lt_of_le (List.idxOf_lt_length_of_mem (List.mem_eraseDups.mp ha))
        (Nat.le_add_right _ _)

/-- Items that are divided by some keys are all items with one of the keys. -/
theorem perm_flatMap_filter (key : β → α) (items : List β) {keys : List α} (h : keys.Nodup) :
    (keys.flatMap fun k => items.filter fun b => key b = k).Perm
      (items.filter fun b => key b ∈ keys) := by
  induction keys with
  | nil => simp
  | cons k keys ih =>
    obtain ⟨hk, hkeys⟩ := List.nodup_cons.mp h
    have hfirst : (items.filter fun b => key b ∈ k :: keys).filter (fun b => key b = k) =
        items.filter fun b => key b = k := by
      rw [List.filter_filter]
      exact List.filter_congr fun b _ => by by_cases hb : key b = k <;> simp [hb]
    have hrest : (items.filter fun b => key b ∈ k :: keys).filter (fun b => !decide (key b = k)) =
        items.filter fun b => key b ∈ keys := by
      rw [List.filter_filter]
      exact List.filter_congr fun b _ => by by_cases hb : key b = k <;> simp [hb, hk]
    have hall := List.filter_append_perm (fun b => decide (key b = k))
      (items.filter fun b => key b ∈ k :: keys)
    rw [hfirst, hrest] at hall
    rw [List.flatMap_cons]
    exact ((ih hkeys).append_left _).trans hall

end Keys

/-! ## Groups -/

namespace Groups

/-- Whether groups divide operations by their primary tags: they have the tags of the operations, in
the order in which the tags come first; each has the operations with its tag, in their order; none
is empty; and together they have every operation as often as it is there. -/
structure Divide (groups : Groups) (endpoints : List Endpoint) : Prop where
  tags : ∀ tag, tag ∈ groups.map Prod.fst ↔ ∃ e ∈ endpoints, e.operation.primaryTag = tag
  order : (groups.map Prod.fst).Pairwise fun s t =>
    (endpoints.map fun e => e.operation.primaryTag).idxOf s <
      (endpoints.map fun e => e.operation.primaryTag).idxOf t
  members : ∀ group ∈ groups,
    group.2 = endpoints.filter fun e => e.operation.primaryTag = group.1
  ne_nil : ∀ group ∈ groups, group.2 ≠ []
  perm : (groups.flatMap Prod.snd).Perm endpoints

theorem map_fst_ofEndpoints (endpoints : List Endpoint) :
    (ofEndpoints endpoints).map Prod.fst = tagsOf endpoints := by
  rw [ofEndpoints_eq, List.map_map]
  exact List.map_id' _

theorem mem_tagsOf {endpoints : List Endpoint} {tag : String} :
    tag ∈ tagsOf endpoints ↔ ∃ e ∈ endpoints, e.operation.primaryTag = tag := by
  rw [tagsOf, List.mem_eraseDups, List.mem_map]

/-- Groups that are made of one operation after another divide the operations. -/
theorem divide_ofEndpoints (endpoints : List Endpoint) :
    (ofEndpoints endpoints).Divide endpoints := by
  have hmembers : ∀ group ∈ ofEndpoints endpoints,
      group.1 ∈ tagsOf endpoints ∧ group.2 = membersOf endpoints group.1 := by
    intro group hgroup
    rw [ofEndpoints_eq] at hgroup
    obtain ⟨tag, htag, rfl⟩ := List.mem_map.mp hgroup
    exact ⟨htag, rfl⟩
  constructor
  case tags =>
    intro tag
    rw [map_fst_ofEndpoints, mem_tagsOf]
  case order =>
    rw [map_fst_ofEndpoints]
    exact pairwise_idxOf_eraseDups _
  case members =>
    intro group hgroup
    exact (hmembers group hgroup).2
  case ne_nil =>
    intro group hgroup
    obtain ⟨htag, hgroup⟩ := hmembers group hgroup
    obtain ⟨e, he, heq⟩ := mem_tagsOf.mp htag
    rw [hgroup]
    exact List.ne_nil_of_mem (List.mem_filter.mpr ⟨he, decide_eq_true heq⟩)
  case perm =>
    have hall : (endpoints.filter fun e => e.operation.primaryTag ∈ tagsOf endpoints) =
        endpoints :=
      List.filter_eq_self.mpr fun e he => decide_eq_true (mem_tagsOf.mpr ⟨e, he, rfl⟩)
    have hperm := perm_flatMap_filter (fun e : Endpoint => e.operation.primaryTag) endpoints
      (nodup_eraseDups (endpoints.map fun e => e.operation.primaryTag))
    rw [← tagsOf, hall] at hperm
    rwa [ofEndpoints_eq, List.flatMap_map]

/-- No two groups have one tag, as one of them stands before the other. -/
theorem Divide.nodup_tags {groups : Groups} {endpoints : List Endpoint}
    (h : groups.Divide endpoints) : (groups.map Prod.fst).Nodup := by
  apply h.order.imp
  rintro s _ hlt rfl
  exact Nat.lt_irrefl _ hlt

/-- There is one way to divide operations. -/
theorem Divide.unique {groups groups' : Groups} {endpoints : List Endpoint}
    (h : groups.Divide endpoints) (h' : groups'.Divide endpoints) : groups = groups' := by
  have hkeys : groups.map Prod.fst = groups'.map Prod.fst := by
    -- both lists have the same tags, in one strict order
    refine List.Perm.eq_of_pairwise ?_ h.order h'.order ?_
    · intro s t _ _ hst hts
      exact absurd hts (Nat.lt_asymm hst)
    · apply (List.perm_ext_iff_of_nodup h.nodup_tags h'.nodup_tags).mpr
      intro tag
      rw [h.tags, h'.tags]
  have hgroups {g : Groups} (hg : g.Divide endpoints) : g = (g.map Prod.fst).map fun tag =>
      (tag, endpoints.filter fun e => e.operation.primaryTag = tag) := by
    rw [List.map_map]
    refine (List.map_id g).symm.trans (List.map_congr_left fun group hgroup => ?_)
    exact Prod.ext rfl (hg.members group hgroup)
  rw [hgroups h, hgroups h', hkeys]

end Groups

namespace Document

/-- **Groups.** The groups of a document divide its operations for the methods of clients by their
primary tags, and no other groups do. None of these operations is in a group twice, and no operation
for another method is in a group. -/
theorem groups_divide (d : Document) :
    d.groups.Divide (d.endpoints.filter fun e => e.method ∈ Method.clientMethods) ∧
      (∀ groups : Groups,
        groups.Divide (d.endpoints.filter fun e => e.method ∈ Method.clientMethods) →
          groups = d.groups) ∧
      ((d.groups.flatMap Prod.snd).map placeOf).Nodup ∧
      ∀ e ∈ d.groups.flatMap Prod.snd,
        e.method ≠ .head ∧ e.method ≠ .options ∧ e.method ≠ .trace := by
  have hdivide : d.groups.Divide
      (d.endpoints.filter fun e => e.method ∈ Method.clientMethods) := by
    rw [← clientEndpoints_eq]
    exact Groups.divide_ofEndpoints d.clientEndpoints
  refine ⟨hdivide, ?unique, ?places, ?methods⟩
  case unique =>
    intro groups hgroups
    exact hgroups.unique hdivide
  case places =>
    rw [(hdivide.perm.map placeOf).nodup_iff]
    exact d.nodup_places.sublist (List.filter_sublist.map placeOf)
  case methods =>
    intro e he
    have hclient : ∀ m ∈ Method.clientMethods, m ≠ .head ∧ m ≠ .options ∧ m ≠ .trace := by decide
    have hmethod := (List.mem_filter.mp (hdivide.perm.mem_iff.mp he)).2
    exact hclient e.method (of_decide_eq_true hmethod)

def tagged (tags : List String) : Operation :=
  { (default : Operation) with tags }

/-- A document whose second path has a tag that is the second one of an operation before, and whose
last path has no tags. -/
def shelters : Document where
  version := "3.0.0"
  info := ⟨"Pets", "1", none⟩
  paths := [("/pets", ⟨[], [(.get, tagged ["pets", "shelters"]), (.post, tagged ["pets"]),
      (.head, tagged ["pets"])], by decide⟩),
    ("/shelters", ⟨[], [(.get, tagged ["shelters"])], by decide⟩),
    ("/health", ⟨[], [(.get, tagged []), (.options, tagged [])], by decide⟩)]
  components := none
  tags := []

/-- It has three groups, and two of its six operations are in none. -/
theorem groups_divide_shelters :
    (shelters.groups.map fun group => (group.1, group.2.map placeOf)) =
        [("pets", [("/pets", .get), ("/pets", .post)]), ("shelters", [("/shelters", .get)]),
          ("default", [("/health", .get)])] ∧
      shelters.groups.Divide
        (shelters.endpoints.filter fun e => e.method ∈ Method.clientMethods) :=
  ⟨by decide, (groups_divide shelters).1⟩

end Document

end OpenApiClient
