import Mathlib.Data.List.Basic
import OpenApiClient.Client.Declarations

/-!
# Schemas that others lead to

The names that are reached from pending ones by references form a set that has the pending names and
is closed: with the name of a schema it has all names that the schema refers to (`reach_spec`). What
a step keeps is that nothing is lost: what a reached schema refers to is reached or pending
(`Explored`). A closed set that has the pending names has also all names that are reached
(`reach_subset`), so that these are the least such set. The schemas that operations need come with
everything that they refer to (`mem_schemasUsedBy`).
-/

namespace OpenApiClient

namespace Entries

variable {α : Type} {key : String} {value : α} {entries : List (String × α)}

/-- Leaving out entries of other keys has no influence on a key. -/
theorem get?_filter {p : String × α → Bool} (hp : ∀ v, p (key, v) = true) :
    get? key (entries.filter p) = get? key entries := by
  induction entries with
  | nil => rfl
  | cons e rest ih =>
    obtain ⟨k, v⟩ := e
    by_cases hk : k = key
    · subst hk
      simp [hp, get?]
    · rw [List.filter_cons]
      split_ifs
      · simp [get?, hk, ih]
      · simp [get?, hk, ih]

end Entries

namespace Document

variable {d : Document} {pending reached : List String} {name : String}

/-- A set of names that has all names that its schemas refer to. -/
def Closed (d : Document) (names : Set String) : Prop :=
  ∀ name ∈ names, ∀ s, d.schema? name = some s → ∀ r ∈ s.references, r ∈ names

/-- What is known while names are reached: what a reached schema refers to is reached or comes
next. -/
def Explored (d : Document) (pending reached : List String) : Prop :=
  ∀ name ∈ reached, ∀ s, d.schema? name = some s →
    ∀ r ∈ s.references, r ∈ reached ∨ r ∈ pending

/-! ## Steps -/

theorem reach_nil (d : Document) (reached : List String) : d.reach [] reached = reached := by
  rw [reach]

theorem reach_of_mem (h : name ∈ reached) (pending : List String) :
    d.reach (name :: pending) reached = d.reach pending reached := by
  rw [reach, dif_pos (List.contains_iff_mem.mpr h)]

def next (d : Document) (name : String) : List String :=
  ((d.schema? name).map Schema.references).getD []

theorem mem_next {r : String} :
    r ∈ d.next name ↔ ∃ s, d.schema? name = some s ∧ r ∈ s.references := by
  rw [next]
  cases d.schema? name <;> simp

theorem reach_of_not_mem (h : name ∉ reached) (pending : List String) :
    d.reach (name :: pending) reached =
      d.reach ((d.next name).reverse ++ pending) (name :: reached) := by
  rw [reach, dif_neg (mt List.contains_iff_mem.mp h), next]
  split <;> simp_all

/-- The cases of the definition: there is no pending name, or the first one is reached already, or
it is new. -/
theorem reach_induction {motive : List String → List String → Prop}
    (nil : ∀ reached, motive [] reached)
    (old : ∀ name pending reached, name ∈ reached → motive pending reached →
      motive (name :: pending) reached)
    (new : ∀ name pending reached, name ∉ reached →
      motive ((d.next name).reverse ++ pending) (name :: reached) →
        motive (name :: pending) reached) :
    ∀ pending reached, motive pending reached := by
  intro pending reached
  induction pending, reached using reach.induct d with
  | case1 reached => exact nil reached
  | case2 reached name pending h ih =>
    exact old name pending reached (List.contains_iff_mem.mp h) ih
  | case3 reached name pending h hs ih =>
    refine new name pending reached (mt List.contains_iff_mem.mpr h) ?_
    rwa [next, hs]
  | case4 reached name pending h s hs ih =>
    refine new name pending reached (mt List.contains_iff_mem.mpr h) ?_
    rwa [next, hs]

/-- A pending name that is reached already can be dropped. -/
theorem Explored.old (h : d.Explored (name :: pending) reached) (hname : name ∈ reached) :
    d.Explored pending reached := by
  intro other hother s hs r hr
  rcases h other hother s hs r hr with hr | hr
  · exact Or.inl hr
  · rcases List.mem_cons.mp hr with rfl | hr
    · exact Or.inl hname
    · exact Or.inr hr

/-- A new name is reached, and what it leads to is pending. -/
theorem Explored.new (h : d.Explored (name :: pending) reached) :
    d.Explored ((d.next name).reverse ++ pending) (name :: reached) := by
  intro other hother s hs r hr
  rcases List.mem_cons.mp hother with rfl | hother
  · refine Or.inr (List.mem_append_left _ (List.mem_reverse.mpr ?_))
    exact mem_next.mpr ⟨s, hs, hr⟩
  · rcases h other hother s hs r hr with hr | hr
    · exact Or.inl (List.mem_cons_of_mem _ hr)
    · rcases List.mem_cons.mp hr with rfl | hr
      · exact Or.inl List.mem_cons_self
      · exact Or.inr (List.mem_append_right _ hr)

/-! ## All steps -/

/-- In the end all pending names are reached, none is lost, and the reached names are closed. -/
theorem reach_spec : ∀ pending reached : List String, d.Explored pending reached →
    pending ⊆ d.reach pending reached ∧ reached ⊆ d.reach pending reached ∧
      d.Closed {name | name ∈ d.reach pending reached} := by
  intro pending reached
  induction pending, reached using reach_induction (d := d) with
  | nil reached =>
    intro h
    rw [reach_nil]
    refine ⟨List.nil_subset _, List.Subset.refl _, fun name hname s hs r hr => ?_⟩
    exact (h name hname s hs r hr).resolve_right List.not_mem_nil
  | old name pending reached hname ih =>
    intro h
    obtain ⟨hpending, hreached, hclosed⟩ := ih (h.old hname)
    rw [reach_of_mem hname]
    exact ⟨List.cons_subset.mpr ⟨hreached hname, hpending⟩, hreached, hclosed⟩
  | new name pending reached hname ih =>
    intro h
    obtain ⟨hpending, hreached, hclosed⟩ := ih h.new
    obtain ⟨hname', hreached⟩ := List.cons_subset.mp hreached
    rw [reach_of_not_mem hname]
    refine ⟨List.cons_subset.mpr ⟨hname', fun other hother => ?_⟩, hreached, hclosed⟩
    exact hpending (List.mem_append_right _ hother)

/-- What is reached is in every closed set that has the pending names. -/
theorem reach_subset {names : Set String} (hclosed : d.Closed names) :
    ∀ pending reached : List String, (∀ name ∈ pending, name ∈ names) →
      (∀ name ∈ reached, name ∈ names) → ∀ name ∈ d.reach pending reached, name ∈ names := by
  intro pending reached
  induction pending, reached using reach_induction (d := d) with
  | nil reached =>
    intro _ hreached
    rwa [reach_nil]
  | old name pending reached hname ih =>
    intro hpending hreached
    rw [reach_of_mem hname]
    exact ih (List.forall_mem_cons.mp hpending).2 hreached
  | new name pending reached hname ih =>
    intro hpending hreached
    obtain ⟨hmem, hpending⟩ := List.forall_mem_cons.mp hpending
    rw [reach_of_not_mem hname]
    refine ih (List.forall_mem_append.mpr ⟨fun r hr => ?_, hpending⟩)
      (List.forall_mem_cons.mpr ⟨hmem, hreached⟩)
    obtain ⟨s, hs, hr⟩ := mem_next.mp (List.mem_reverse.mp hr)
    exact hclosed name hmem s hs r hr

/-! ## Schemas that operations need -/

variable {operations : List Operation}

/-- The names that operations need, directly or through others. -/
def namesUsedBy (d : Document) (operations : List Operation) : List String :=
  d.reach (operations.flatMap fun op => referencesOf op.schemas).reverse []

theorem namesUsedBy_spec (d : Document) (operations : List Operation) :
    (∀ op ∈ operations, ∀ s ∈ op.schemas, s.references ⊆ d.namesUsedBy operations) ∧
      d.Closed {name | name ∈ d.namesUsedBy operations} := by
  obtain ⟨hgiven, -, hclosed⟩ := reach_spec (d := d)
    (operations.flatMap fun op => referencesOf op.schemas).reverse [] (by simp [Explored])
  refine ⟨fun op hop s hs r hr => hgiven (List.mem_reverse.mpr ?_), hclosed⟩
  exact List.mem_flatMap.mpr ⟨op, hop, List.mem_flatMap.mpr ⟨s, hs, hr⟩⟩

theorem mem_schemasUsedBy {name : String} {s : Schema} :
    (name, s) ∈ d.schemasUsedBy operations ↔
      (name, s) ∈ d.schemas ∧ name ∈ d.namesUsedBy operations := by
  show (name, s) ∈ d.schemas.filter (fun e => (d.namesUsedBy operations).contains e.1) ↔ _
  rw [List.mem_filter, List.contains_iff_mem]

/-- A needed schema is found under its name as in the document. -/
theorem get?_schemasUsedBy {name : String} (h : name ∈ d.namesUsedBy operations) :
    Entries.get? name (d.schemasUsedBy operations) = d.schema? name :=
  Entries.get?_filter (p := fun e => (d.namesUsedBy operations).contains e.1)
    fun _ => List.contains_iff_mem.mpr h

end Document

/-! ## Schemas that an operation uses -/

/-- The content of a body that is preferred: that of the first preferred type which the body has, or
its first content if it has none of these types. -/
inductive RequestBody.Prefers (b : RequestBody) : MediaType → Prop
  | listed {before after : List String} {type : String} {m : MediaType}
      (types : preferredTypes = before ++ type :: after)
      (others : ∀ t ∈ before, Entries.get? t b.content = none)
      (found : Entries.get? type b.content = some m) : b.Prefers m
  | first {type : String} {m : MediaType} {rest : List (String × MediaType)}
      (others : ∀ t ∈ preferredTypes, Entries.get? t b.content = none)
      (content : b.content = (type, m) :: rest) : b.Prefers m

/-- The schemas that an operation uses: those of its parameters, that of the preferred content of its
body and that of the first content of the response for success. -/
inductive Operation.Uses (op : Operation) : Schema → Prop
  | parameter {p : Parameter} {s : Schema} (mem : p ∈ op.parameters) (schema : p.schema = some s) :
      op.Uses s
  | body {b : RequestBody} {m : MediaType} {s : Schema} (body : op.requestBody = some b)
      (content : b.Prefers m) (schema : m.schema = some s) : op.Uses s
  | success {r : Response} {type : String} {m : MediaType} {rest : List (String × MediaType)}
      {s : Schema} (response : Entries.get? "200" op.responses = some r)
      (content : r.content = (type, m) :: rest) (schema : m.schema = some s) : op.Uses s

theorem RequestBody.prefers_iff {b : RequestBody} {m : MediaType} :
    b.Prefers m ↔ ((preferredTypes.findSome? fun t => Entries.get? t b.content).or
      (b.content.head?.map Prod.snd)) = some m := by
  rw [Option.or_eq_some_iff, List.findSome?_eq_some_iff, List.findSome?_eq_none_iff]
  constructor
  · rintro (⟨types, others, found⟩ | ⟨others, content⟩)
    · exact Or.inl ⟨_, _, _, types, found, others⟩
    · exact Or.inr ⟨others, by rw [content]; rfl⟩
  · rintro (⟨before, type, after, types, found, others⟩ | ⟨others, hfirst⟩)
    · exact .listed types others found
    · obtain ⟨⟨type, m⟩, hhead, rfl⟩ := Option.map_eq_some_iff.mp hfirst
      obtain ⟨rest, content⟩ := List.head?_eq_some_iff.mp hhead
      exact .first others content

theorem Operation.mem_schemas {op : Operation} {s : Schema} : s ∈ op.schemas ↔ op.Uses s := by
  rw [schemas, List.mem_append, List.mem_append, List.mem_filterMap, Option.mem_toList,
    Option.mem_toList]
  constructor
  · rintro ((⟨p, hp, hs⟩ | hbody) | hsuccess)
    · exact .parameter hp hs
    · obtain ⟨b, hb, hschema⟩ := Option.bind_eq_some_iff.mp hbody
      obtain ⟨m, hm, hs⟩ := Option.bind_eq_some_iff.mp hschema
      exact .body hb (RequestBody.prefers_iff.mpr hm) hs
    · obtain ⟨r, hr, hschema⟩ := Option.bind_eq_some_iff.mp hsuccess
      obtain ⟨m, hm, hs⟩ := Option.bind_eq_some_iff.mp hschema
      obtain ⟨⟨type, m⟩, hhead, rfl⟩ := Option.map_eq_some_iff.mp hm
      obtain ⟨rest, hcontent⟩ := List.head?_eq_some_iff.mp hhead
      exact .success hr hcontent hs
  · rintro (⟨hp, hs⟩ | ⟨hb, hm, hs⟩ | ⟨hr, hcontent, hs⟩)
    · exact Or.inl (Or.inl ⟨_, hp, hs⟩)
    · refine Or.inl (Or.inr (Option.bind_eq_some_iff.mpr ⟨_, hb, ?_⟩))
      exact Option.bind_eq_some_iff.mpr ⟨_, RequestBody.prefers_iff.mp hm, hs⟩
    · refine Or.inr (Option.bind_eq_some_iff.mpr ⟨_, hr, ?_⟩)
      rw [hcontent]
      exact hs

end OpenApiClient
