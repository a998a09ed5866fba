import Mathlib.Data.List.Nodup
import OpenApiClient.Client.Groups

/-!
# Places of operations

An operation of a document is found under its path and its method. No two operations share a place,
as no path stands twice in a document and no method twice in a path (`nodup_places`). The operations
for some methods are the same, whether they are selected from all operations or looked up method by
method (`clientEndpoints_eq`), because both ways follow the order of the methods.
-/

namespace OpenApiClient

namespace PathItem

/-- Operations that stand in the order of some methods are found in that order again. -/
theorem filterMap_lookup_of_sublist : ∀ {ms : List Method}, ms.Nodup →
    ∀ {operations : List (Method × Operation)}, (operations.map Prod.fst).Sublist ms →
      (ms.filterMap fun m => (operations.lookup m).map fun op => (m, op)) = operations
  | [], _, operations, h => by
    rw [List.sublist_nil, List.map_eq_nil_iff] at h
    rw [h]
    rfl
  | m :: ms, hnodup, operations, h => by
    obtain ⟨hm, hms⟩ := List.nodup_cons.mp hnodup
    cases operations with
    | nil => simp
    | cons e rest =>
      obtain ⟨method, op⟩ := e
      -- The next method is that of the first operation, or no operation has it.
      by_cases hmethod : method = m
      · subst hmethod
        have hrest : (rest.map Prod.fst).Sublist ms := List.cons_sublist_cons.mp h
        have hlookup : ∀ m ∈ ms, ((method, op) :: rest).lookup m = rest.lookup m := by
          intro m hmem
          have hne : m ≠ method := by
            rintro rfl
            exact hm hmem
          rw [List.lookup_cons, beq_false_of_ne hne]
        have hfirst : ((method, op) :: rest).lookup method = some op := by simp
        rw [List.filterMap_cons, hfirst]
        refine congrArg ((method, op) :: ·) (Eq.trans ?_ (filterMap_lookup_of_sublist hms hrest))
        exact List.filterMap_congr fun m hmem => by rw [hlookup m hmem]
      · have hothers : (((method, op) :: rest).map Prod.fst).Sublist ms := by
          cases h with
          | cons _ h => exact h
          | cons_cons _ h => exact absurd rfl hmethod
        have habsent : ((method, op) :: rest).lookup m = none := by
          rw [List.lookup_eq_none_iff]
          intro e he
          have hmem := hothers.subset (List.mem_map_of_mem (f := Prod.fst) he)
          simpa using fun heq : m = e.1 => hm (heq ▸ hmem)
        rw [List.filterMap_cons, habsent]
        exact filterMap_lookup_of_sublist hms hothers

theorem filterMap_lookup (item : PathItem) :
    (Method.all.filterMap fun m => (item.operations.lookup m).map fun op => (m, op)) =
      item.operations :=
  filterMap_lookup_of_sublist (by decide) item.ordered

end PathItem

namespace Document

/-- The operations of a path are found again method by method. -/
theorem endpointsOf_eq (path : String) (item : PathItem) :
    endpointsOf path item =
      Method.all.filterMap fun m => (item.operations.lookup m).map fun op => ⟨path, m, op⟩ := by
  rw [endpointsOf]
  conv_lhs => rw [← item.filterMap_lookup]
  rw [List.map_filterMap]
  simp only [Option.map_map, Function.comp_def]

theorem clientEndpointsOf_eq (path : String) (item : PathItem) :
    clientEndpointsOf path item =
      (endpointsOf path item).filter fun e => e.method ∈ Method.clientMethods := by
  have hmethods : Method.all.filter (· ∈ Method.clientMethods) = Method.clientMethods := by decide
  have hclient (f : Method → Option Endpoint) : Method.clientMethods.filterMap f =
      Method.all.filterMap fun m => if m ∈ Method.clientMethods then f m else none := by
    conv_lhs => rw [← hmethods]
    simp [List.filterMap_filter]
  rw [clientEndpointsOf, endpointsOf_eq, List.filter_filterMap, hclient]
  refine List.filterMap_congr fun m _ => ?_
  cases item.operations.lookup m with
  | none => simp
  | some op => simp [Option.filter]

/-- The operations that a client can call are those of its methods, in the order of the document. -/
theorem clientEndpoints_eq (d : Document) :
    d.clientEndpoints = d.endpoints.filter fun e => e.method ∈ Method.clientMethods := by
  rw [clientEndpoints, endpoints, List.filter_flatMap]
  exact List.flatMap_congr fun p _ => clientEndpointsOf_eq p.1 p.2

/-- The operations of a document that can be called: on each path those for five of the methods. -/
def calls (d : Document) : List Endpoint :=
  d.paths.flatMap fun p =>
    (p.2.operations.filter fun o => o.1 ∈ [Method.get, .post, .put, .delete, .patch]).map
      fun o => ⟨p.1, o.1, o.2⟩

theorem clientEndpoints_eq_calls (d : Document) : d.clientEndpoints = d.calls := by
  rw [clientEndpoints_eq, endpoints, List.filter_flatMap]
  refine List.flatMap_congr fun p _ => ?_
  show (endpointsOf p.1 p.2).filter _ = _
  rw [endpointsOf, List.filter_map]
  rfl

theorem mem_endpoints {d : Document} {e : Endpoint} (h : e ∈ d.endpoints) :
    ∃ p ∈ d.paths, e.path = p.1 ∧ (e.method, e.operation) ∈ p.2.operations := by
  obtain ⟨p, hp, he⟩ := List.mem_flatMap.mp h
  obtain ⟨o, ho, rfl⟩ := List.mem_map.mp he
  exact ⟨p, hp, rfl, ho⟩

def placeOf (e : Endpoint) : String × Method :=
  (e.path, e.method)

/-- No two operations have one place. -/
theorem nodup_places (d : Document) : (d.endpoints.map placeOf).Nodup := by
  have hplaces : d.endpoints.map placeOf =
      d.paths.flatMap fun p => p.2.operations.map fun o => (p.1, o.1) := by
    rw [endpoints, List.map_flatMap]
    simp only [endpointsOf, List.map_map]
    rfl
  rw [hplaces, List.nodup_flatMap]
  constructor
  · intro p _
    have hpairs : p.2.operations.map (fun o => (p.1, o.1)) =
        (p.2.operations.map Prod.fst).map (Prod.mk p.1) := by
      rw [List.map_map]
      rfl
    rw [hpairs]
    exact p.2.nodup_methods.map fun _ _ heq => congrArg Prod.snd heq
  · -- places of different paths differ in the path
    refine (List.pairwise_map.mp d.distinct).imp fun {p q} hne => ?_
    rintro place hp hq
    obtain ⟨o, -, rfl⟩ := List.mem_map.mp hp
    obtain ⟨o', -, heq⟩ := List.mem_map.mp hq
    exact hne (congrArg Prod.fst heq).symm

end Document

end OpenApiClient
