import OpenApiClient.Proofs.Document.Written
import OpenApiClient.Proofs.Json.Related

/-!
# What replacing references does to a document

Components are used in four kinds of places: as parameters of a path, and as parameters, as the body
and as responses of an operation (`IsUse`). Each use is replaced by what it reaches in at most
fifteen steps and is left out if it reaches nothing; the uses that are kept stay in their order, and
under every other key of the document there is what there was (`DocumentResolved`). Afterwards no
use is a reference, so doing all of it once more changes nothing (`document_resolved`).

Values are compared key by key, because an operation that loses its body has its last entry moved
into the gap.
-/

namespace OpenApiClient

namespace Inline

variable {components entries : List (String × Json)} {sectionName : String} {v t : Json}

/-- Whether at most fifteen references, one after another, lead from a value to a value that is no
reference. -/
def Reaches (components : List (String × Json)) (sectionName : String) (v t : Json) : Prop :=
  ∃ names, names.length ≤ 15 ∧ Leads components sectionName names v t

/-- Whether a list is another one in which everything that is related to something is replaced by
it, and everything else is left out. -/
inductive Kept {α : Type} (R : α → α → Prop) : List α → List α → Prop
  | nil : Kept R [] []
  | keep {a b : α} {as bs : List α} (h : R a b) (rest : Kept R as bs) : Kept R (a :: as) (b :: bs)
  | drop {a : α} {as bs : List α} (h : ∀ b, ¬R a b) (rest : Kept R as bs) : Kept R (a :: as) bs

/-- Whether two values are objects with related entries, or one value that is no object. -/
inductive Objects (R : List (String × Json) → List (String × Json) → Prop) : Json → Json → Prop
  | entries {entries entries' : List (String × Json)} (h : R entries entries') :
      Objects R (.obj entries) (.obj entries')
  | other {v : Json} (h : v.entries? = none) : Objects R v v

section Resolved

variable (components : List (String × Json))

/-- What becomes of a list of parameters; a value that is no list is left alone. -/
inductive ParametersResolved : Json → Json → Prop
  | items {items items' : List Json} (h : Kept (Reaches components "parameters") items items') :
      ParametersResolved (.arr items) (.arr items')
  | other {v : Json} (h : v.items? = none) : ParametersResolved v v

/-- What becomes of responses; they keep their statuses. -/
def ResponsesResolved : Json → Json → Prop :=
  Objects (Kept fun e e' => e'.1 = e.1 ∧ Reaches components "responses" e.2 e'.2)

structure OperationResolved (entries entries' : List (String × Json)) : Prop where
  parameters : Option.Rel (ParametersResolved components)
    (Entries.get? "parameters" entries) (Entries.get? "parameters" entries')
  requestBody : ∀ t, Entries.get? "requestBody" entries' = some t ↔
    ∃ body, Entries.get? "requestBody" entries = some body ∧
      Reaches components "requestBodies" body t
  responses : Option.Rel (ResponsesResolved components)
    (Entries.get? "responses" entries) (Entries.get? "responses" entries')
  other : ∀ key ∉ ["parameters", "requestBody", "responses"],
    Entries.get? key entries' = Entries.get? key entries

structure PathResolved (entries entries' : List (String × Json)) : Prop where
  parameters : Option.Rel (ParametersResolved components)
    (Entries.get? "parameters" entries) (Entries.get? "parameters" entries')
  operations : ∀ m : Method, Option.Rel (Objects (OperationResolved components))
    (Entries.get? m.name entries) (Entries.get? m.name entries')
  other : ∀ key, key ≠ "parameters" → (∀ m : Method, key ≠ m.name) →
    Entries.get? key entries' = Entries.get? key entries

end Resolved

/-- What becomes of the entries of a document: the paths stay, each with its own entries resolved,
and nothing else changes, the components included. -/
structure DocumentResolved (root root' : List (String × Json)) : Prop where
  paths : Option.Rel
    (Objects (Entries.Related fun _ => Objects (PathResolved (componentsOf (.obj root)))))
    (Entries.get? "paths" root) (Entries.get? "paths" root')
  other : ∀ key, key ≠ "paths" → Entries.get? key root' = Entries.get? key root

def item? (v : Json) (path : String) : Option Json :=
  (v.get? "paths").bind (Json.get? path)

def operation? (v : Json) (path : String) (m : Method) : Option Json :=
  (item? v path).bind (Json.get? m.name)

/-- The uses of components in a raw document. -/
inductive IsUse (v : Json) : Json → Prop
  | pathParameter {path : String} {item : Json} {items : List Json} {use : Json}
      (hitem : item? v path = some item) (hlist : item.get? "parameters" = some (.arr items))
      (hmem : use ∈ items) : IsUse v use
  | parameter {path : String} {m : Method} {op : Json} {items : List Json} {use : Json}
      (hop : operation? v path m = some op) (hlist : op.get? "parameters" = some (.arr items))
      (hmem : use ∈ items) : IsUse v use
  | requestBody {path : String} {m : Method} {op use : Json}
      (hop : operation? v path m = some op) (hbody : op.get? "requestBody" = some use) :
      IsUse v use
  | response {path : String} {m : Method} {op : Json} {named : List (String × Json)}
      {e : String × Json} (hop : operation? v path m = some op)
      (hlist : op.get? "responses" = some (.obj named)) (hmem : e ∈ named) : IsUse v e.2

/-! ## Uses -/

theorem reaches_iff : Reaches components sectionName v t ↔
    resolve? components sectionName v = some t := by
  rw [resolve?_eq_some_iff]
  -- sixteen values are looked at, so that there are fifteen steps between them
  exact exists_congr fun names => and_congr_left' Nat.lt_succ_iff.symm

theorem kept_filterMap {α : Type} {R : α → α → Prop} {f : α → Option α}
    (hf : ∀ a b, R a b ↔ f a = some b) (as : List α) : Kept R as (as.filterMap f) := by
  induction as with
  | nil => exact Kept.nil
  | cons a as ih =>
    cases ha : f a with
    | none =>
      rw [List.filterMap_cons_none ha]
      refine Kept.drop (fun b hb => ?_) ih
      rw [hf, ha] at hb
      cases hb
    | some b =>
      rw [List.filterMap_cons_some ha]
      exact Kept.keep ((hf a b).mpr ha) ih

theorem parametersResolved (components : List (String × Json)) (v : Json) :
    ParametersResolved components v (parameters components v) := by
  cases v with
  | arr items =>
    apply ParametersResolved.items
    apply kept_filterMap
    intro a b
    exact reaches_iff
  | _ => exact .other rfl

theorem responsesResolved (components : List (String × Json)) (v : Json) :
    ResponsesResolved components v (responses components v) := by
  cases v with
  | obj named =>
    refine Objects.entries (kept_filterMap (fun e e' => ?_) named)
    rw [reaches_iff, Option.map_eq_some_iff]
    constructor
    · rintro ⟨hkey, hresolve⟩
      exact ⟨e'.2, hresolve, by rw [← hkey]⟩
    · rintro ⟨t, hresolve, rfl⟩
      exact ⟨rfl, hresolve⟩
  | _ => exact .other rfl

/-- A chain ends at a value that is no reference. -/
theorem Leads.pointer?_eq_none {names : List String} (h : Leads components sectionName names v t) :
    pointer? t = none := by
  induction h with
  | here hnone => exact hnone
  | next _ _ _ ih => exact ih

theorem Reaches.pointer?_eq_none (h : Reaches components sectionName v t) : pointer? t = none := by
  obtain ⟨names, -, hleads⟩ := h
  exact hleads.pointer?_eq_none

theorem Kept.exists_of_mem {α : Type} {R : α → α → Prop} {as bs : List α} (h : Kept R as bs)
    {b : α} (hb : b ∈ bs) : ∃ a ∈ as, R a b := by
  induction h with
  | nil => exact absurd hb List.not_mem_nil
  | keep hR _ ih =>
    rcases List.mem_cons.mp hb with rfl | hb
    · exact ⟨_, List.mem_cons_self, hR⟩
    · obtain ⟨a, ha, hR⟩ := ih hb
      exact ⟨a, List.mem_cons_of_mem _ ha, hR⟩
  | drop _ _ ih =>
    obtain ⟨a, ha, hR⟩ := ih hb
    exact ⟨a, List.mem_cons_of_mem _ ha, hR⟩

/-! ## Operations, paths and documents -/

theorem rel_map {R : Json → Json → Prop} {f : Json → Json} {o : Option Json}
    (h : ∀ v, o = some v → R v (f v)) : Option.Rel R o (o.map f) := by
  cases o with
  | none => exact .none
  | some v => exact .some (h v rfl)

theorem get?_requestBody (hnodup : (Entries.keys entries).Nodup) (key : String) :
    Entries.get? key (requestBody components entries) =
      if key = "requestBody" then
        (Entries.get? "requestBody" entries).bind (resolve? components "requestBodies")
      else Entries.get? key entries := by
  unfold requestBody
  split
  next hnone =>
    split_ifs with hkey
    · rw [hkey, hnone]
      rfl
    · rfl
  next body hbody =>
    rw [hbody, Option.bind_some]
    split
    next target htarget =>
      rw [Entries.get?_modify, htarget]
      split_ifs with hkey hkey' hkey'
      · rw [← hkey, hbody]
        rfl
      · exact absurd hkey.symm hkey'
      · exact absurd hkey'.symm hkey
      · rfl
    next hdropped =>
      rw [Entries.get?_swapRemove hnodup, hdropped]
      split_ifs with hkey hkey' hkey'
      · rfl
      · exact absurd hkey.symm hkey'
      · exact absurd hkey'.symm hkey
      · rfl

theorem operationResolved (hnodup : (Entries.keys entries).Nodup) :
    OperationResolved components entries
      (Entries.modify "responses" (responses components)
        (requestBody components
          (Entries.modify "parameters" (parameters components) entries))) := by
  have hget : ∀ key, Entries.get? key (requestBody components
      (Entries.modify "parameters" (parameters components) entries)) =
        if key = "requestBody" then
          (Entries.get? "requestBody" entries).bind (resolve? components "requestBodies")
        else if "parameters" = key then (Entries.get? key entries).map (parameters components)
        else Entries.get? key entries := by
    intro key
    have hbody : Entries.get? "requestBody"
        (Entries.modify "parameters" (parameters components) entries) =
          Entries.get? "requestBody" entries := by
      rw [Entries.get?_modify, if_neg (by decide)]
    rw [get?_requestBody (by rwa [Entries.keys_modify]), hbody, Entries.get?_modify]
  constructor
  case parameters =>
    rw [Entries.get?_modify, if_neg (by decide), hget, if_neg (by decide), if_pos rfl]
    exact rel_map fun v _ => parametersResolved components v
  case requestBody =>
    intro t
    rw [Entries.get?_modify, if_neg (by decide), hget, if_pos rfl, Option.bind_eq_some_iff]
    exact exists_congr fun body => and_congr_right' reaches_iff.symm
  case responses =>
    rw [Entries.get?_modify, if_pos rfl, hget, if_neg (by decide), if_neg (by decide)]
    exact rel_map fun v _ => responsesResolved components v
  case other =>
    intro key hkey
    simp only [List.mem_cons, List.not_mem_nil, or_false, not_or] at hkey
    rw [Entries.get?_modify, if_neg (Ne.symm hkey.2.2), hget, if_neg hkey.2.1,
      if_neg (Ne.symm hkey.1)]

theorem objects_operation (hkeys : v.hasDistinctKeys = true) :
    Objects (OperationResolved components) v (operation components v) := by
  cases v with
  | obj entries =>
    exact .entries (operationResolved ((Json.hasDistinctKeys_obj entries).mp hkeys).1)
  | _ => exact .other rfl

/-- Operations are resolved one method after another. -/
theorem get?_foldl_operation {methods : List Method} (hmethods : (methods.map Method.name).Nodup)
    (key : String) (entries : List (String × Json)) :
    Entries.get? key (methods.foldl
        (fun entries m => Entries.modify m.name (operation components) entries) entries) =
      if key ∈ methods.map Method.name then (Entries.get? key entries).map (operation components)
      else Entries.get? key entries := by
  induction methods generalizing entries with
  | nil => rfl
  | cons m rest ih =>
    obtain ⟨hm, hrest⟩ := List.nodup_cons.mp hmethods
    rw [List.foldl_cons, ih hrest, Entries.get?_modify]
    by_cases hkey : m.name = key
    · subst hkey
      simp [hm]
    · simp [hkey, Ne.symm hkey]

theorem pathResolved (hkeys : (Json.obj entries).hasDistinctKeys = true) :
    PathResolved components entries
      (Method.all.foldl (fun entries m => Entries.modify m.name (operation components) entries)
        (Entries.modify "parameters" (parameters components) entries)) := by
  have hnames : (Method.all.map Method.name).Nodup := by decide
  constructor
  case parameters =>
    rw [get?_foldl_operation hnames, if_neg (by decide), Entries.get?_modify, if_pos rfl]
    exact rel_map fun v _ => parametersResolved components v
  case operations =>
    intro m
    have hmem : m.name ∈ Method.all.map Method.name := by cases m <;> decide
    have hne : "parameters" ≠ m.name := by cases m <;> decide
    rw [get?_foldl_operation hnames, if_pos hmem, Entries.get?_modify, if_neg hne]
    apply rel_map
    intro v hget
    exact objects_operation (Json.hasDistinctKeys_of_get? hkeys hget)
  case other =>
    intro key hparameters hmethods
    have hnot : key ∉ Method.all.map Method.name := by
      intro hmem
      obtain ⟨m, -, rfl⟩ := List.mem_map.mp hmem
      exact hmethods m rfl
    rw [get?_foldl_operation hnames, if_neg hnot, Entries.get?_modify,
      if_neg (Ne.symm hparameters)]

theorem objects_pathItem (hkeys : v.hasDistinctKeys = true) :
    Objects (PathResolved components) v (pathItem components v) := by
  cases v with
  | obj entries => exact .entries (pathResolved hkeys)
  | _ => exact .other rfl

theorem related_map_value {R : String → Json → Json → Prop} {f : Json → Json}
    (h : ∀ e ∈ entries, R e.1 e.2 (f e.2)) :
    Entries.Related R entries (entries.map fun (key, v) => (key, f v)) := by
  induction entries with
  | nil => exact List.Forall₂.nil
  | cons e rest ih =>
    obtain ⟨he, hrest⟩ := List.forall_mem_cons.mp h
    exact List.Forall₂.cons ⟨rfl, he⟩ (ih hrest)

theorem objects_document (hkeys : v.hasDistinctKeys = true) :
    Objects DocumentResolved v (document v) := by
  cases v with
  | obj root =>
    refine .entries ⟨?_, fun key hkey => ?_⟩
    · rw [Entries.get?_modify, if_pos rfl]
      apply rel_map
      intro paths hpaths
      have hdistinct : paths.hasDistinctKeys = true := Json.hasDistinctKeys_of_get? hkeys hpaths
      cases paths with
      | obj items =>
        refine .entries (related_map_value fun e he => ?_)
        exact objects_pathItem (((Json.hasDistinctKeys_obj items).mp hdistinct).2 e he)
      | _ => exact .other rfl
    · rw [Entries.get?_modify, if_neg (Ne.symm hkey)]
  | _ => exact .other rfl

/-! ## Uses that are left -/

section Left

variable {R : List (String × Json) → List (String × Json) → Prop} {v' use : Json} {path : String}
  {m : Method}

theorem exists_of_rel_some {R : Json → Json → Prop} {o : Option Json} {b : Json}
    (h : Option.Rel R o (some b)) : ∃ a, o = some a ∧ R a b := by
  cases h with
  | some hR => exact ⟨_, rfl, hR⟩

/-- What has a value under a key is an object, and so was what it came from. -/
theorem Objects.exists_of_get? (h : Objects R v v') {key : String} {w' : Json}
    (hget : v'.get? key = some w') :
    ∃ entries entries', R entries entries' ∧ Entries.get? key entries' = some w' := by
  cases h with
  | entries hR => exact ⟨_, _, hR, hget⟩
  | other hnone =>
    rw [Json.get?, hnone] at hget
    cases hget

/-- The paths that are there afterwards come from those that were there before. -/
theorem exists_item (h : Objects DocumentResolved v v') {item' : Json}
    (hitem : item? v' path = some item') :
    ∃ components item, Objects (PathResolved components) item item' := by
  rw [item?, Option.bind_eq_some_iff] at hitem
  obtain ⟨paths', hpaths', hitem⟩ := hitem
  obtain ⟨root, root', hroot, hget⟩ := h.exists_of_get? hpaths'
  have hrel := hroot.paths
  rw [hget] at hrel
  obtain ⟨paths, -, hpaths⟩ := exists_of_rel_some hrel
  obtain ⟨items, items', hitems, hget⟩ := hpaths.exists_of_get? hitem
  obtain ⟨e, -, hobjects⟩ := hitems.exists_of_mem (Entries.mem_of_get? hget)
  exact ⟨_, e.2, hobjects⟩

theorem exists_operation (h : Objects DocumentResolved v v') {op' : Json}
    (hop : operation? v' path m = some op') :
    ∃ components op, Objects (OperationResolved components) op op' := by
  rw [operation?, Option.bind_eq_some_iff] at hop
  obtain ⟨item', hitem', hop⟩ := hop
  obtain ⟨components, item, hitem⟩ := exists_item h hitem'
  obtain ⟨entries, entries', hentries, hget⟩ := hitem.exists_of_get? hop
  have hrel := hentries.operations m
  rw [hget] at hrel
  obtain ⟨op, -, hobjects⟩ := exists_of_rel_some hrel
  exact ⟨components, op, hobjects⟩

theorem ParametersResolved.pointer?_eq_none {items : List Json}
    (h : ParametersResolved components v (.arr items)) (huse : use ∈ items) :
    pointer? use = none := by
  cases h with
  | items hkept =>
    obtain ⟨a, -, hreaches⟩ := hkept.exists_of_mem huse
    exact hreaches.pointer?_eq_none
  | other hnone => cases hnone

theorem ResponsesResolved.pointer?_eq_none {named : List (String × Json)} {e : String × Json}
    (h : ResponsesResolved components v (.obj named)) (he : e ∈ named) : pointer? e.2 = none := by
  cases h with
  | entries hkept =>
    obtain ⟨a, -, -, hreaches⟩ := hkept.exists_of_mem he
    exact hreaches.pointer?_eq_none
  | other hnone => cases hnone

/-- No use is a reference afterwards. -/
theorem pointer?_of_isUse (h : Objects DocumentResolved v v') (huse : IsUse v' use) :
    pointer? use = none := by
  cases huse with
  | pathParameter hitem hlist hmem =>
    obtain ⟨components, item, hitem⟩ := exists_item h hitem
    obtain ⟨entries, entries', hentries, hget⟩ := hitem.exists_of_get? hlist
    have hrel := hentries.parameters
    rw [hget] at hrel
    obtain ⟨list, -, hresolved⟩ := exists_of_rel_some hrel
    exact hresolved.pointer?_eq_none hmem
  | parameter hop hlist hmem =>
    obtain ⟨components, op, hop⟩ := exists_operation h hop
    obtain ⟨entries, entries', hentries, hget⟩ := hop.exists_of_get? hlist
    have hrel := hentries.parameters
    rw [hget] at hrel
    obtain ⟨list, -, hresolved⟩ := exists_of_rel_some hrel
    exact hresolved.pointer?_eq_none hmem
  | requestBody hop hbody =>
    obtain ⟨components, op, hop⟩ := exists_operation h hop
    obtain ⟨entries, entries', hentries, hget⟩ := hop.exists_of_get? hbody
    obtain ⟨body, -, hreaches⟩ := (hentries.requestBody use).mp hget
    exact hreaches.pointer?_eq_none
  | response hop hlist hmem =>
    obtain ⟨components, op, hop⟩ := exists_operation h hop
    obtain ⟨entries, entries', hentries, hget⟩ := hop.exists_of_get? hlist
    have hrel := hentries.responses
    rw [hget] at hrel
    obtain ⟨list, -, hresolved⟩ := exists_of_rel_some hrel
    exact hresolved.pointer?_eq_none hmem

end Left

/-! ## Nothing left to do -/

theorem parameters_eq_of_pointer?
    (h : ∀ items, v = .arr items → ∀ use ∈ items, pointer? use = none) :
    parameters components v = v := by
  cases v with
  | arr items => exact parameters_eq_self components (h items rfl)
  | _ => rfl

theorem responses_eq_of_pointer?
    (h : ∀ named, v = .obj named → ∀ e ∈ named, pointer? e.2 = none) :
    responses components v = v := by
  cases v with
  | obj named => exact responses_eq_self components (h named rfl)
  | _ => rfl

/-- A document without references in its paths is left as it is. -/
theorem document_eq_self (hkeys : v.hasDistinctKeys = true)
    (h : ∀ use, IsUse v use → pointer? use = none) : document v = v := by
  have hoperation : ∀ (path : String) (m : Method) (op : Json) (components : List (String × Json)),
      operation? v path m = some op → operation components op = op := by
    intro path m op components hop
    cases op with
    | obj entries =>
      apply operation_eq_self
      · rintro list hlist
        apply parameters_eq_of_pointer?
        rintro items rfl use hmem
        exact h use (.parameter hop hlist hmem)
      · intro body hbody
        exact h body (.requestBody hop hbody)
      · rintro list hlist
        apply responses_eq_of_pointer?
        rintro named rfl e hmem
        exact h e.2 (.response hop hlist hmem)
    | _ => rfl
  have hpath : ∀ (path : String) (item : Json) (components : List (String × Json)),
      item? v path = some item → pathItem components item = item := by
    intro path item components hitem
    cases item with
    | obj entries =>
      apply pathItem_eq_self
      · rintro list hlist
        apply parameters_eq_of_pointer?
        rintro items rfl use hmem
        exact h use (.pathParameter hitem hlist hmem)
      · intro m op hop
        apply hoperation path m op components
        rw [operation?, hitem]
        exact hop
    | _ => rfl
  cases v with
  | obj root =>
    refine congrArg Json.obj (Entries.modify_eq_self fun paths hpaths => ?_)
    have hdistinct : paths.hasDistinctKeys = true := Json.hasDistinctKeys_of_get? hkeys hpaths
    cases paths with
    | obj items =>
      -- every path is the one that is found under its name
      have hnodup := ((Json.hasDistinctKeys_obj items).mp hdistinct).1
      refine congrArg Json.obj ((List.map_congr_left fun e he => ?_).trans (List.map_id _))
      have hfound : Entries.get? e.1 items = some e.2 := (Entries.get?_eq_some_iff hnodup).mpr he
      have hitem : item? (.obj root) e.1 = some e.2 := by
        rw [item?, Option.bind_eq_some_iff]
        exact ⟨.obj items, hpaths, hfound⟩
      exact congrArg (Prod.mk e.1) (hpath e.1 e.2 _ hitem)
    | _ => rfl
  | _ => rfl

/-! ## Keys -/

section Keys

theorem Leads.hasDistinctKeys {names : List String} (h : Leads components sectionName names v t)
    (hcomponents : (Json.obj components).hasDistinctKeys = true) (hv : v.hasDistinctKeys = true) :
    t.hasDistinctKeys = true := by
  induction h with
  | here => exact hv
  | next _ hcomponent _ ih =>
    obtain ⟨named, hnamed, hget⟩ := Option.bind_eq_some_iff.mp hcomponent
    have hdistinct : named.hasDistinctKeys = true :=
      Json.hasDistinctKeys_of_get? hcomponents hnamed
    exact ih (Json.hasDistinctKeys_of_get? hdistinct hget)

variable (hcomponents : (Json.obj components).hasDistinctKeys = true)
include hcomponents

theorem hasDistinctKeys_resolve? (hv : v.hasDistinctKeys = true)
    (h : resolve? components sectionName v = some t) : t.hasDistinctKeys = true := by
  obtain ⟨names, -, hleads⟩ := resolve?_eq_some_iff.mp h
  exact hleads.hasDistinctKeys hcomponents hv

theorem hasDistinctKeys_parameters (hv : v.hasDistinctKeys = true) :
    (parameters components v).hasDistinctKeys = true := by
  cases v with
  | arr items =>
    rw [Json.hasDistinctKeys_arr] at hv
    show (Json.arr _).hasDistinctKeys = true
    rw [Json.hasDistinctKeys_arr]
    intro t ht
    obtain ⟨w, hw, hresolve⟩ := List.mem_filterMap.mp ht
    exact hasDistinctKeys_resolve? hcomponents (hv w hw) hresolve
  | _ => exact hv

theorem hasDistinctKeys_responses (hv : v.hasDistinctKeys = true) :
    (responses components v).hasDistinctKeys = true := by
  cases v with
  | obj named =>
    rw [Json.hasDistinctKeys_obj] at hv
    show (Json.obj _).hasDistinctKeys = true
    rw [Json.hasDistinctKeys_obj]
    constructor
    · exact hv.1.sublist (Entries.sublist_keys_filterMap (resolve? components "responses") named)
    · intro e he
      obtain ⟨w, hw, hresolve⟩ := List.mem_filterMap.mp he
      obtain ⟨t, ht, rfl⟩ := Option.map_eq_some_iff.mp hresolve
      exact hasDistinctKeys_resolve? hcomponents (hv.2 w hw) ht
  | _ => exact hv

theorem hasDistinctKeys_requestBody (h : (Json.obj entries).hasDistinctKeys = true) :
    (Json.obj (requestBody components entries)).hasDistinctKeys = true := by
  unfold requestBody
  split
  next => exact h
  next body hbody =>
    have hdistinct : body.hasDistinctKeys = true := Json.hasDistinctKeys_of_get? h hbody
    split
    next target htarget =>
      exact Json.hasDistinctKeys_modify h fun _ _ =>
        hasDistinctKeys_resolve? hcomponents hdistinct htarget
    next =>
      rw [Json.hasDistinctKeys_obj] at h ⊢
      refine ⟨Entries.nodup_keys_swapRemove h.1 _, fun e he => h.2 e ?_⟩
      exact ((Entries.mem_swapRemove h.1).mp he).1

theorem hasDistinctKeys_operation (hv : v.hasDistinctKeys = true) :
    (operation components v).hasDistinctKeys = true := by
  cases v with
  | obj entries =>
    apply Json.hasDistinctKeys_modify
    · apply hasDistinctKeys_requestBody hcomponents
      apply Json.hasDistinctKeys_modify hv
      exact fun _ => hasDistinctKeys_parameters hcomponents
    · exact fun _ => hasDistinctKeys_responses hcomponents
  | _ => exact hv

theorem hasDistinctKeys_pathItem (hv : v.hasDistinctKeys = true) :
    (pathItem components v).hasDistinctKeys = true := by
  cases v with
  | obj entries =>
    have hfold : ∀ (methods : List Method) {entries : List (String × Json)},
        (Json.obj entries).hasDistinctKeys = true →
          (Json.obj (methods.foldl (fun entries m =>
            Entries.modify m.name (operation components) entries) entries)).hasDistinctKeys =
              true := by
      intro methods
      induction methods with
      | nil => exact fun h => h
      | cons m rest ih =>
        intro entries h
        apply ih
        apply Json.hasDistinctKeys_modify h
        exact fun _ => hasDistinctKeys_operation hcomponents
    apply hfold
    apply Json.hasDistinctKeys_modify hv
    exact fun _ => hasDistinctKeys_parameters hcomponents
  | _ => exact hv

end Keys

theorem hasDistinctKeys_componentsOf (hv : v.hasDistinctKeys = true) :
    (Json.obj (componentsOf v)).hasDistinctKeys = true := by
  rw [componentsOf]
  cases hget : v.get? "components" with
  | none => rfl
  | some w =>
    have hw : w.hasDistinctKeys = true := Json.hasDistinctKeys_of_get? hv hget
    cases w with
    | obj sections => exact hw
    | _ => rfl

theorem hasDistinctKeys_document (hv : v.hasDistinctKeys = true) :
    (document v).hasDistinctKeys = true := by
  cases v with
  | obj root =>
    have hcomponents := hasDistinctKeys_componentsOf hv
    apply Json.hasDistinctKeys_modify hv
    intro paths hpaths
    cases paths with
    | obj items =>
      rw [Json.hasDistinctKeys_obj] at hpaths
      have hkeys : Entries.keys (items.map fun (path, item) =>
          (path, pathItem (componentsOf (.obj root)) item)) = Entries.keys items := by
        rw [Entries.keys, List.map_map]
        rfl
      show (Json.obj _).hasDistinctKeys = true
      rw [Json.hasDistinctKeys_obj]
      refine ⟨?_, fun e he => ?_⟩
      · exact hkeys ▸ hpaths.1
      · obtain ⟨p, hp, rfl⟩ := List.mem_map.mp he
        exact hasDistinctKeys_pathItem hcomponents (hpaths.2 p hp)
    | _ => exact hpaths
  | _ => exact hv

/-- **References.** In every raw document each use of a component is replaced by what it reaches in
at most fifteen steps, in its section, or is left out if it reaches nothing. Uses that are kept stay
in order, and under all other keys nothing changes. Afterwards no use is a reference, and replacing
references once more changes nothing. -/
theorem document_resolved (v : Json.Keyed) :
    Objects DocumentResolved v.json (document v.json) ∧
      (document v.json).hasDistinctKeys = true ∧
      (∀ use, IsUse (document v.json) use → pointer? use = none) ∧
        document (document v.json) = document v.json := by
  have hresolved := objects_document v.distinct
  have hdistinct := hasDistinctKeys_document v.distinct
  have hnone : ∀ use, IsUse (document v.json) use → pointer? use = none :=
    fun use huse => pointer?_of_isUse hresolved huse
  exact ⟨hresolved, hdistinct, hnone, document_eq_self hdistinct hnone⟩

/-- A document with a parameter that refers to itself, one that is two steps away, a body from
another section and a response that is not there. -/
def tangled : Json :=
  .obj
    [("paths", .obj [("/a", .obj
      [("parameters", .arr [reference "parameters" "Loop", reference "parameters" "Twice"]),
        ("get", .obj
          [("requestBody", reference "responses" "Found"),
            ("responses", .obj
              [("200", reference "responses" "Found"), ("404", reference "responses" "Lost")]),
            ("summary", .str "first")])])]),
      ("components", .obj
        [("parameters", .obj
          [("Loop", reference "parameters" "Loop"), ("Twice", reference "parameters" "Once"),
            ("Once", .obj [("name", .str "page")])]),
          ("responses", .obj [("Found", .obj [("description", .str "found")])])])]

theorem document_resolved_tangled :
    (Objects DocumentResolved tangled (document tangled) ∧
        (document tangled).hasDistinctKeys = true ∧
        (∀ use, IsUse (document tangled) use → pointer? use = none) ∧
          document (document tangled) = document tangled) ∧
      item? (document tangled) "/a" = some (.obj
        [("parameters", .arr [.obj [("name", .str "page")]]),
          ("get", .obj
            [("summary", .str "first"),
              ("responses", .obj [("200", .obj [("description", .str "found")])])])]) :=
  ⟨document_resolved ⟨tangled, by decide⟩, by decide +kernel⟩

end Inline

end OpenApiClient
