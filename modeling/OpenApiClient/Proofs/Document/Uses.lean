import OpenApiClient.Document.Inline
import OpenApiClient.Proofs.Json.Related

/-!
# Uses of components

Components are used in the paths of a document: as parameters of a path or of an operation, as its
request body, and as its responses. If two documents differ in nothing but such uses, and those that
take the place of each other stand for the same (`Agree`), the documents have the same paths once
references are replaced (`paths_eq`). This is shown from the inside out: for lists of parameters and
for responses, for operations field by field, for paths method by method.
-/

namespace OpenApiClient

open Entries (Related Among)
open Json (ItemsRelated FieldsRelated)

namespace Inline

variable {U : String → Json → Json → Prop} {components components' : List (String × Json)}
  {v v' : Json}

/-- How the values of an operation are related in which components are used, given how the uses of
each section are. -/
def operationUse (U : String → Json → Json → Prop) (key : String) : Json → Json → Prop :=
  if key = "parameters" then ItemsRelated (U "parameters")
  else if key = "requestBody" then U "requestBodies"
  else FieldsRelated fun _ => U "responses"

def OperationRelated (U : String → Json → Json → Prop) : Json → Json → Prop :=
  FieldsRelated (Among ["parameters", "requestBody", "responses"] (operationUse U))

/-- How the values of a path are related in which components are used. -/
def pathUse (U : String → Json → Json → Prop) (key : String) : Json → Json → Prop :=
  if key = "parameters" then ItemsRelated (U "parameters") else OperationRelated U

def PathRelated (U : String → Json → Json → Prop) : Json → Json → Prop :=
  FieldsRelated (Among ("parameters" :: Method.all.map Method.name) (pathUse U))

def paths (components : List (String × Json)) (v : Json) : Json :=
  match v with
  | .obj items => .obj (items.map fun (path, item) => (path, pathItem components item))
  | other => other

/-- Whether related values stand for the same. -/
def Agree (U : String → Json → Json → Prop) (components components' : List (String × Json)) :
    Prop :=
  ∀ sectionName v v', U sectionName v v' →
    resolve? components' sectionName v' = resolve? components sectionName v

theorem nodup_keys_requestBody {entries : List (String × Json)}
    (hnodup : (Entries.keys entries).Nodup) :
    (Entries.keys (requestBody components entries)).Nodup := by
  unfold requestBody
  split
  · exact hnodup
  · split
    · rwa [Entries.keys_modify]
    · exact Entries.nodup_keys_swapRemove hnodup _

section Agreeing

variable (h : Agree U components components')
include h

theorem parameters_eq (hv : ItemsRelated (U "parameters") v v') :
    parameters components' v' = parameters components v := by
  cases hv with
  | items hitems =>
    refine congrArg Json.arr ?_
    induction hitems with
    | nil => rw [List.filterMap_nil, List.filterMap_nil]
    | @cons v v' _ _ hitem _ ih =>
      have hresolve : resolve? components' "parameters" v' =
          resolve? components "parameters" v := h _ _ _ hitem
      simp only [List.filterMap_cons, hresolve, ih]
  | @other v hnone =>
    cases v with
    | arr items => cases hnone
    | _ => rfl

theorem responses_eq (hv : FieldsRelated (fun _ => U "responses") v v') :
    responses components' v' = responses components v := by
  cases hv with
  | fields hentries =>
    refine congrArg Json.obj ?_
    induction hentries with
    | nil => rw [List.filterMap_nil, List.filterMap_nil]
    | @cons e e' _ _ hentry _ ih =>
      obtain ⟨status, response⟩ := e
      obtain ⟨status', response'⟩ := e'
      obtain ⟨rfl, huse⟩ := hentry
      have hresolve : resolve? components' "responses" response' =
          resolve? components "responses" response := h _ _ _ huse
      simp only [List.filterMap_cons, hresolve, ih]
  | @other v hnone =>
    cases v with
    | obj entries => cases hnone
    | _ => rfl

theorem requestBody_related {among : List String} {entries entries' : List (String × Json)}
    (hentries : Related (Among ("requestBody" :: among) (operationUse U)) entries entries')
    (hnodup : (Entries.keys entries).Nodup) (hamong : "requestBody" ∉ among) :
    Related (Among among (operationUse U)) (requestBody components entries)
      (requestBody components' entries') := by
  rw [requestBody, requestBody]
  rcases hentries.get? "requestBody" with ⟨hnone, hnone'⟩ | ⟨body, body', hbody, hbody', huse⟩
  · rw [hnone, hnone']
    refine hentries.mono fun e he v' hR => ?_
    have hmem : e.1 ∈ Entries.keys entries := List.mem_map_of_mem he
    have hne : e.1 ≠ "requestBody" :=
      fun heq => Entries.get?_eq_none_iff.mp hnone (heq ▸ hmem)
    simpa [Among, hne] using hR
  · have hresolve : resolve? components' "requestBodies" body' =
        resolve? components "requestBodies" body := by
      rw [Among, if_pos List.mem_cons_self] at huse
      exact h _ _ _ huse
    rw [hbody, hbody']
    dsimp only
    rw [hresolve]
    cases resolve? components "requestBodies" body with
    | some target => exact hentries.modify hnodup hamong fun _ _ _ => rfl
    | none => exact hentries.swapRemove_among hnodup

theorem operation_eq (hv : OperationRelated U v v') (hkeys : v.hasDistinctKeys = true) :
    operation components' v' = operation components v := by
  cases hv with
  | @fields entries entries' hentries =>
    have hparameters : ∀ w w', ItemsRelated (U "parameters") w w' →
        parameters components' w' = parameters components w := fun _ _ => parameters_eq h
    have hresponses : ∀ w w', FieldsRelated (fun _ => U "responses") w w' →
        responses components' w' = responses components w := fun _ _ => responses_eq h
    have hnodup := ((Json.hasDistinctKeys_obj entries).mp hkeys).1
    -- one after another, the three fields become equal
    have hentries := hentries.modify hnodup (by decide) hparameters
    have hnodup : (Entries.keys (Entries.modify "parameters" (parameters components)
        entries)).Nodup := by
      rwa [Entries.keys_modify]
    have hentries := requestBody_related h hentries hnodup (by decide)
    have hentries := hentries.modify (nodup_keys_requestBody hnodup) List.not_mem_nil hresponses
    exact congrArg Json.obj (hentries.eq fun _ _ _ hR => hR)
  | @other v hnone =>
    cases v with
    | obj entries => cases hnone
    | _ => rfl

/-- Uses in operations are replaced one method after another. -/
theorem foldl_operation_eq {methods : List Method} {entries entries' : List (String × Json)}
    (hmethods : (methods.map Method.name).Nodup)
    (hentries : Related (Among (methods.map Method.name)
      fun _ v v' => OperationRelated U v v' ∧ v.hasDistinctKeys = true) entries entries')
    (hnodup : (Entries.keys entries).Nodup) :
    methods.foldl (fun entries m => Entries.modify m.name (operation components') entries)
        entries' =
      methods.foldl (fun entries m => Entries.modify m.name (operation components) entries)
        entries := by
  induction methods generalizing entries entries' with
  | nil => exact hentries.eq fun _ _ _ hR => hR
  | cons m rest ih =>
    obtain ⟨hm, hrest⟩ := List.nodup_cons.mp hmethods
    have hoperation : ∀ w w', OperationRelated U w w' ∧ w.hasDistinctKeys = true →
        operation components' w' = operation components w :=
      fun _ _ hw => operation_eq h hw.1 hw.2
    exact ih hrest (hentries.modify hnodup hm hoperation) (by rwa [Entries.keys_modify])

theorem pathItem_eq (hv : PathRelated U v v') (hkeys : v.hasDistinctKeys = true) :
    pathItem components' v' = pathItem components v := by
  cases hv with
  | @fields entries entries' hentries =>
    obtain ⟨hnodup, hvalues⟩ := (Json.hasDistinctKeys_obj entries).mp hkeys
    have hparameters : ∀ w w', pathUse U "parameters" w w' ∧ w.hasDistinctKeys = true →
        parameters components' w' = parameters components w :=
      fun _ _ hw => parameters_eq h hw.1
    have hentries : Related (Among ("parameters" :: Method.all.map Method.name) fun key w w' =>
        pathUse U key w w' ∧ w.hasDistinctKeys = true) entries entries' :=
      hentries.among_and hvalues
    have hentries := hentries.modify hnodup (by decide) hparameters
    have hnodup : (Entries.keys (Entries.modify "parameters" (parameters components)
        entries)).Nodup := by
      rwa [Entries.keys_modify]
    have hoperations : Related (Among (Method.all.map Method.name) fun _ w w' =>
        OperationRelated U w w' ∧ w.hasDistinctKeys = true)
          (Entries.modify "parameters" (parameters components) entries)
          (Entries.modify "parameters" (parameters components') entries') := by
      refine hentries.mono fun e _ w' hR => ?_
      unfold Among at hR ⊢
      split_ifs with hkey
      · have hnames : ∀ key ∈ Method.all.map Method.name, key ≠ "parameters" := by decide
        rwa [if_pos hkey, pathUse, if_neg (hnames e.1 hkey)] at hR
      · rwa [if_neg hkey] at hR
    rw [pathItem, pathItem, foldl_operation_eq h (by decide) hoperations hnodup]
  | @other v hnone =>
    cases v with
    | obj entries => cases hnone
    | _ => rfl

theorem paths_eq (hv : FieldsRelated (fun _ => PathRelated U) v v')
    (hkeys : v.hasDistinctKeys = true) : paths components' v' = paths components v := by
  cases hv with
  | @fields entries entries' hentries =>
    have hvalues := ((Json.hasDistinctKeys_obj entries).mp hkeys).2
    clear hkeys
    refine congrArg Json.obj ?_
    induction hentries with
    | nil => rw [List.map_nil, List.map_nil]
    | @cons e e' _ _ hentry _ ih =>
      obtain ⟨path, item⟩ := e
      obtain ⟨path', item'⟩ := e'
      obtain ⟨rfl, huse⟩ := hentry
      obtain ⟨hitem, hvalues⟩ := List.forall_mem_cons.mp hvalues
      have heq : pathItem components' item' = pathItem components item := pathItem_eq h huse hitem
      rw [List.map_cons, List.map_cons, ih hvalues]
      simp only [heq]
  | @other v hnone =>
    cases v with
    | obj entries => cases hnone
    | _ => rfl

end Agreeing

end Inline

end OpenApiClient
