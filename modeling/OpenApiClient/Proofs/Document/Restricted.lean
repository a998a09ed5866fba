import OpenApiClient.Proofs.Document.Places

/-!
# Documents with fewer operations

Selecting by tags restricts a document to the operations with a property. What is left are the
operations with the property, in their order (`endpoints_restrict`), and whoever restricts twice
restricts to both properties (`restrict_restrict`). So it is of no importance in which order and how
often selections are made (`select_exact`).
-/

namespace OpenApiClient

variable (p q : Operation → Bool)

theorem PathItem.restrict_restrict (item : PathItem) :
    (item.restrict p).restrict q = item.restrict fun op => p op && q op := by
  refine PathItem.ext rfl ?_
  show (item.operations.filter _).filter _ = item.operations.filter _
  rw [List.filter_filter]
  simp only [Bool.and_comm]

theorem PathItem.operations_restrict_eq_nil {item : PathItem} :
    (item.restrict p).operations = [] ↔ ∀ e ∈ item.operations, p e.2 = false := by
  simp only [restrict, List.filter_eq_nil_iff, Bool.not_eq_true]

namespace Document

theorem mem_paths_restrict {d : Document} {e : String × PathItem} :
    e ∈ (d.restrict p).paths ↔
      (∃ item, (e.1, item) ∈ d.paths ∧ e.2 = item.restrict p) ∧ e.2.operations ≠ [] := by
  obtain ⟨path, rest⟩ := e
  rw [paths_restrict, List.mem_filter, List.mem_map]
  constructor
  · rintro ⟨⟨f, hf, heq⟩, hne⟩
    cases heq
    exact ⟨⟨f.2, hf, rfl⟩, by simpa using hne⟩
  · rintro ⟨⟨item, hitem, rfl⟩, hne⟩
    exact ⟨⟨(path, item), hitem, rfl⟩, by simpa using hne⟩

/-- The paths that are left stand in their order. -/
theorem map_fst_paths_restrict (d : Document) :
    ((d.restrict p).paths.map Prod.fst).Sublist (d.paths.map Prod.fst) := by
  have hall : (d.paths.map fun e => (e.1, e.2.restrict p)).map Prod.fst =
      d.paths.map Prod.fst := by
    rw [List.map_map]
    rfl
  rw [← hall]
  exact List.filter_sublist.map Prod.fst

/-- The operations that are left are those with the property, in their order. -/
theorem endpoints_restrict (d : Document) :
    (d.restrict p).endpoints = d.endpoints.filter fun e => p e.operation := by
  rw [endpoints, endpoints, paths_restrict]
  induction d.paths with
  | nil => rfl
  | cons e rest ih =>
    obtain ⟨path, item⟩ := e
    have hown : endpointsOf path (item.restrict p) =
        (endpointsOf path item).filter fun e => p e.operation := by
      rw [endpointsOf, endpointsOf, List.filter_map]
      rfl
    rw [List.map_cons, List.flatMap_cons, List.filter_append, ← hown, ← ih]
    by_cases hempty : (item.restrict p).operations = []
    · -- a path that is left out had no operation with the property
      simp [hempty, endpointsOf]
    · simp [hempty]

theorem restrict_restrict (d : Document) :
    (d.restrict p).restrict q = d.restrict fun op => p op && q op := by
  refine Document.ext rfl rfl ?_ rfl rfl
  rw [paths_restrict, paths_restrict, paths_restrict]
  induction d.paths with
  | nil => rfl
  | cons e rest ih =>
    obtain ⟨path, item⟩ := e
    by_cases hempty : (item.restrict p).operations = []
    · -- the path was left out at once, and would be left out in the end
      have hboth : (item.restrict fun op => p op && q op).operations = [] := by
        rw [PathItem.operations_restrict_eq_nil] at hempty ⊢
        intro e he
        rw [hempty e he, Bool.false_and]
      simpa [hempty, hboth] using ih
    · have hkept : (!(item.restrict p).operations.isEmpty) = true := by simpa using hempty
      simp only [List.map_cons, List.filter_cons]
      rw [if_pos hkept, List.map_cons, List.filter_cons, ih, PathItem.restrict_restrict]

end Document

/-! ## Selections -/

namespace Selection

/-- Whether an operation is wanted: its primary tag is the default one, or it has a tag that is
asked for, if any is, and a primary tag that is not excluded. -/
def Wants (s : Selection) (op : Operation) : Prop :=
  op.primaryTag = defaultTag ∨
    (s.wanted = [] ∨ ∃ tag ∈ op.tags, tag ∈ s.wanted) ∧ op.primaryTag ∉ s.unwanted

theorem keeps_iff {s : Selection} {op : Operation} : s.keeps op = true ↔ s.Wants op := by
  simp [keeps, Wants]

instance (s : Selection) : DecidablePred s.Wants := fun _ =>
  decidable_of_iff _ keeps_iff

theorem keeps_eq (s : Selection) : s.keeps = fun op => decide (s.Wants op) := by
  ext op
  rw [Bool.eq_iff_iff, keeps_iff, decide_eq_true_iff]

end Selection

namespace Document

theorem select_eq (s : Selection) (d : Document) :
    d.select s = d.restrict fun op => decide (s.Wants op) := by
  rw [select, s.keeps_eq]

/-- **Selection.** What is selected from a document whose paths share no parameters has the wanted
operations in their order, each at its path and with its method. Its paths stand in their order,
have operations left and are otherwise as they were, and so is everything besides the paths.
Selecting again changes nothing, and two selections can be made in either order. -/
theorem select_exact (s t : Selection) {d : Document} (h : ∀ p ∈ d.paths, p.2.parameters = []) :
    (d.select s).endpoints = d.endpoints.filter (fun e => s.Wants e.operation) ∧
      ((d.select s).paths.map Prod.fst).Sublist (d.paths.map Prod.fst) ∧
      (∀ p ∈ (d.select s).paths, p.2.operations ≠ [] ∧ ∃ item, (p.1, item) ∈ d.paths ∧
        p.2.parameters = item.parameters ∧
        p.2.operations = item.operations.filter fun e => s.Wants e.2) ∧
      d.select s = { d with paths := (d.select s).paths, distinct := (d.select s).distinct } ∧
      (d.select s).select s = d.select s ∧
      (d.select s).select t = (d.select t).select s := by
  simp only [select_eq]
  refine ⟨endpoints_restrict _ d, map_fst_paths_restrict _ d, ?paths, rfl, ?again, ?commute⟩
  case paths =>
    intro p hp
    obtain ⟨⟨item, hitem, heq⟩, hne⟩ := (mem_paths_restrict _).mp hp
    rw [heq] at hne ⊢
    exact ⟨hne, item, hitem, (h _ hitem).symm, rfl⟩
  case again =>
    rw [restrict_restrict]
    simp only [Bool.and_self]
  case commute =>
    rw [restrict_restrict, restrict_restrict]
    simp only [Bool.and_comm]

/-- A document with an operation of two tags, a path that is left without operations by most
selections, and an operation without tags. -/
def stores : Document where
  version := "3.0.0"
  info := ⟨"Pets", "1", none⟩
  paths := [("/pets", ⟨[], [(.get, { (default : Operation) with tags := ["pets"] }),
      (.post, { (default : Operation) with tags := ["pets", "admin"] })], by decide⟩),
    ("/store", ⟨[], [(.get, { (default : Operation) with tags := ["store"] }),
      (.head, { (default : Operation) with tags := ["admin", "store"] })], by decide⟩),
    ("/health", ⟨[], [(.get, default)], by decide⟩)]
  components := none
  tags := [⟨"pets", none⟩]

/-- Of its five operations one selection wants three, and another one two of these. -/
theorem select_exact_stores :
    (∀ p ∈ stores.paths, p.2.parameters = []) ∧
      (stores.select ⟨["admin"], []⟩).endpoints.map placeOf =
        [("/pets", .post), ("/store", .head), ("/health", .get)] ∧
      ((stores.select ⟨["admin"], []⟩).select ⟨[], ["admin"]⟩).endpoints.map placeOf =
        [("/pets", .post), ("/health", .get)] ∧
      (stores.select ⟨["admin"], []⟩).select ⟨[], ["admin"]⟩ =
        (stores.select ⟨[], ["admin"]⟩).select ⟨["admin"], []⟩ := by
  have hparameters : ∀ p ∈ stores.paths, p.2.parameters = [] := by decide
  obtain ⟨-, -, -, -, -, hcommute⟩ := select_exact ⟨["admin"], []⟩ ⟨[], ["admin"]⟩ hparameters
  exact ⟨hparameters, by decide, by decide, hcommute⟩

end Document

end OpenApiClient
