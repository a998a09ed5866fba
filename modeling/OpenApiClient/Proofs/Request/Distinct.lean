import Mathlib.Data.Option.Basic
import OpenApiClient.Document.Normal
import OpenApiClient.Proofs.Repetitions
import OpenApiClient.Proofs.Request.Coverage

/-!
# Keys of a request

The fields of a request stand in one interface, and its headers in an object type of their own. No
name is claimed twice (`nodup_taken_claimFields`), and the fields are named by what is claimed, so
the keys of the interface name different fields. The headers claim nothing: their keys are the names
of the parameters as they are, so they differ exactly if the names do. Parameters that a path shares
never repeat a name, as they are only added where the name is not there yet
(`nodup_namesIn_normalize`).
-/

namespace OpenApiClient

namespace Code

/-- Keys name properties, and no property twice, so that they differ as texts as well. -/
def NameOnce (keys : List String) : Prop :=
  ∃ names : List String, keys.map keyName? = names.map some ∧ names.Nodup

theorem nameOnce_propertyKey (names : List String) :
    NameOnce (names.map propertyKey) ↔ names.Nodup := by
  have hread : (names.map propertyKey).map keyName? = names.map some := by
    simp [keyName?_propertyKey]
  constructor
  · rintro ⟨read, hkeys, hnodup⟩
    rw [hread] at hkeys
    rwa [List.map_injective_iff.mpr (Option.some_injective String) hkeys]
  · intro hnodup
    exact ⟨names, hread, hnodup⟩

end Code

/-! ## Names of parameters -/

def Operation.namesIn (location : Location) (op : Operation) : List String :=
  (op.parametersIn location).map Parameter.name

theorem Parameter.merge_cons (own : List Parameter) (p : Parameter) (shared : List Parameter) :
    merge own (p :: shared) =
      merge (if own.any fun q => q.sameSlot p then own else own ++ [p]) shared :=
  rfl

/-- One more parameter for a place that no other one is for repeats no name at a location. -/
theorem Parameter.nodup_names_concat {own : List Parameter} {p : Parameter}
    (h : ¬own.any (fun q => q.sameSlot p) = true) (location : Location) :
    (((own ++ [p]).filter fun q => q.location = location).map name).Nodup ↔
      ((own.filter fun q => q.location = location).map name).Nodup := by
  by_cases hp : p.location = location
  · have hnew : p.name ∉ (own.filter fun q => q.location = location).map name := by
      intro hmem
      obtain ⟨q, hq, hname⟩ := List.mem_map.mp hmem
      obtain ⟨hown, hlocation⟩ := List.mem_filter.mp hq
      have hslot : q.sameSlot p = true := by
        simp [sameSlot, hname, hp, of_decide_eq_true hlocation]
      exact h (List.any_eq_true.mpr ⟨q, hown, hslot⟩)
    have hfilter : ([p].filter fun q => q.location = location) = [p] := by simp [hp]
    rw [List.filter_append, hfilter, List.map_append, List.map_singleton]
    constructor
    · intro hnodup
      exact (List.nodup_append.mp hnodup).1
    · intro hnodup
      simpa using List.Nodup.concat hnew hnodup
  · have hfilter : ([p].filter fun q => q.location = location) = [] := by simp [hp]
    rw [List.filter_append, hfilter, List.append_nil]

theorem Parameter.nodup_names_merge (location : Location) (shared own : List Parameter) :
    (((merge own shared).filter fun q => q.location = location).map name).Nodup ↔
      ((own.filter fun q => q.location = location).map name).Nodup := by
  induction shared generalizing own with
  | nil => rfl
  | cons p shared ih =>
    rw [merge_cons, ih]
    split_ifs with h
    · rfl
    · exact nodup_names_concat h location

/-- The parameters that an operation shares with others repeat no name. -/
theorem Operation.nodup_namesIn_normalize (location : Location) (shared : List Parameter)
    (op : Operation) :
    ((op.normalize shared).namesIn location).Nodup ↔ (op.namesIn location).Nodup :=
  Parameter.nodup_names_merge location shared op.parameters

/-! ## Names of fields -/

theorem nodup_taken_claimFields {α : Type} {nameOf : α → String} {clash : String → Diagnostic}
    {field : α → Noted RequestField} (items : List α) {taken : List String} (h : taken.Nodup) :
    (claimFields nameOf clash field taken items).value.2.Nodup := by
  induction items generalizing taken with
  | nil => exact h
  | cons a rest ih =>
    by_cases ha : nameOf a ∈ taken
    · rw [claimFields_of_mem ha]
      exact ih h
    · rw [claimFields_of_not_mem ha]
      exact ih (List.nodup_cons.mpr ⟨ha, h⟩)

namespace RequestShape

variable (c : TypeContext) {op : PlannedOperation}

theorem headers_free (h : keepsHeaders op = true) :
    "headers" ∉ PathTemplate.placeholders op.endpoint.path := by
  rw [keepsHeaders, Bool.and_eq_true] at h
  simpa using h.2

variable (op)

/-- A fixed field is claimed only where its name is free. -/
theorem nodup_claim_fixed {names : List String} {name : String} {keep : Bool} (h : names.Nodup)
    (hfree : keep = true → name ∉ names) : (names ++ if keep then [name] else []).Nodup := by
  cases keep with
  | false => rwa [if_neg Bool.false_ne_true, List.append_nil]
  | true => simpa using List.Nodup.concat (hfree rfl) h

theorem nodup_claimedFirst : (claimedFirst op).Nodup := by
  have hpath : (PathTemplate.placeholders op.endpoint.path).Nodup := nodup_eraseDups _
  have hbody : keepsBody op = true → "body" ∉ PathTemplate.placeholders op.endpoint.path ++
      if keepsHeaders op then ["headers"] else [] := by
    intro hkeep
    rw [keepsBody, Bool.and_eq_true] at hkeep
    have hplaceholders : "body" ∉ PathTemplate.placeholders op.endpoint.path := by
      simpa using hkeep.2
    split_ifs <;> simp [hplaceholders]
  exact nodup_claim_fixed (nodup_claim_fixed hpath headers_free) hbody

/-- The fields are named by what is claimed when the query is done and by what the body adds. -/
theorem nodup_fieldNames_of_body {own : List String}
    (hbody : (of c op).value.body.names = (if keepsBody op then ["body"] else []) ++ own)
    (hown : ((queryFields c op).value.2 ++ own).Nodup) : (of c op).value.fieldNames.Nodup := by
  have htaken : (queryFields c op).value.2.Perm
      (claimedFirst op ++ (queryFields c op).value.1.map RequestField.name) :=
    perm_taken_claimFields (name_field c op.location) _ _
  have hheaders : (if (of c op).value.headers.isEmpty then [] else ["headers"]) =
      if keepsHeaders op then ["headers"] else [] := by
    rw [isEmpty_headers]
    cases keepsHeaders op <;> rfl
  have hquery : (of c op).value.query = (queryFields c op).value.1 := rfl
  refine ((htaken.append_right own).trans ?_).nodup hown
  -- the names stand in another order, as the query comes before the fixed fields
  rw [fieldNames, otherNames, map_name_path, hheaders, hbody, hquery, claimedFirst,
    List.perm_iff_count]
  intro name
  simp only [List.count_append]
  omega

theorem nodup_fieldNames : (of c op).value.fieldNames.Nodup := by
  have htaken : (queryFields c op).value.2.Nodup :=
    nodup_taken_claimFields _ (nodup_claimedFirst op)
  have hnone : ((queryFields c op).value.2 ++ []).Nodup := by rwa [List.append_nil]
  cases hrequest : op.operation.requestBody with
  | none =>
    have hkeep : keepsBody op = false := by simp [keepsBody, hasWholeBody, hrequest]
    refine nodup_fieldNames_of_body c op ?_ hnone
    show (bodyPart c op).value.names = _
    rw [bodyPart, bodyOf, hrequest, hkeep]
    rfl
  | some b =>
    cases hprops : b.schema?.bind Schema.properties? with
    | some fields =>
      obtain ⟨properties, required⟩ := fields
      have hkeep : keepsBody op = false := by simp [keepsBody, hasWholeBody, hrequest, hprops]
      have hnames : (propertyFields c op required properties).value.2.Perm
          ((queryFields c op).value.2 ++
            (propertyFields c op required properties).value.1.map RequestField.name) :=
        perm_taken_claimFields (name_propertyField c op.location required) _ _
      refine nodup_fieldNames_of_body c op ?_ (hnames.nodup (nodup_taken_claimFields _ htaken))
      show (bodyPart c op).value.names = _
      rw [(bodyPart_properties c hrequest hprops).1, hkeep]
      rfl
    | none =>
      refine nodup_fieldNames_of_body c op ?_ hnone
      show (bodyPart c op).value.names = _
      rw [bodyPart, bodyOf, hrequest]
      simp only [hprops]
      cases keepsBody op <;> rfl

/-! ## Keys -/

def headerTypes (s : RequestShape) : List (Code.MemberHead × Code.TypeExpr) :=
  s.headers.map RequestField.typeMember

theorem names_headerTypes :
    (of c op).value.headerTypes.map (fun m => m.1.name) =
      if keepsHeaders op then op.operation.namesIn .header else [] := by
  rw [headerTypes, headers_of]
  split_ifs
  · simp only [List.map_map]
    rfl
  · rfl

theorem nodup_names_headerTypes :
    ((of c op).value.headerTypes.map fun m => m.1.name).Nodup ↔
      "headers" ∈ PathTemplate.placeholders op.endpoint.path ∨
        (op.operation.namesIn .header).Nodup := by
  rw [names_headerTypes]
  cases hkeep : keepsHeaders op with
  | true =>
    simp [headers_free hkeep]
  | false =>
    -- either no header is wanted or a placeholder has the name of their field
    rw [keepsHeaders, Bool.and_eq_false_iff] at hkeep
    rcases hkeep with hempty | htaken
    · have hnone : op.operation.namesIn .header = [] := by simpa [Operation.namesIn] using hempty
      simp [hnone]
    · have hplaceholder : "headers" ∈ PathTemplate.placeholders op.endpoint.path := by
        simpa using htaken
      simp [hplaceholder]

/-- **Keys of a request.** For every operation, the keys of the interface of its request name
different properties. The type of its headers is an object type, and the keys of that name different
properties exactly if the names of the header parameters differ, or if a placeholder of the path
keeps the headers out of the request. Names that repeat in a normal operation were there before:
parameters that a path shares are added only where they are new. -/
theorem keys_distinct :
    Code.NameOnce ((of c op).value.members.map Code.Member.key) ∧
      (∀ m ∈ (of c op).value.headerMembers,
        m.type = (Code.TypeExpr.object (of c op).value.headerTypes).text) ∧
      (Code.NameOnce
          ((of c op).value.headerTypes.map fun m => Code.propertyKey m.1.name) ↔
        "headers" ∈ PathTemplate.placeholders op.endpoint.path ∨
          (op.operation.namesIn .header).Nodup) ∧
      ∀ (own : Operation) (shared : List Parameter),
        ((own.normalize shared).namesIn .header).Nodup ↔ (own.namesIn .header).Nodup := by
  refine ⟨?interface, ?type, ?headers, ?shared⟩
  case interface =>
    refine ⟨(of c op).value.fieldNames, ?_, nodup_fieldNames c op⟩
    rw [List.map_map]
    exact map_keyName?_members _
  case type =>
    intro m hm
    unfold headerMembers at hm
    split_ifs at hm
    · exact absurd hm List.not_mem_nil
    · rw [List.mem_singleton.mp hm]
      rfl
  case headers =>
    have hkeys := Code.nameOnce_propertyKey ((of c op).value.headerTypes.map fun m => m.1.name)
    rw [List.map_map] at hkeys
    exact hkeys.trans (nodup_names_headerTypes c op)
  case shared =>
    intro own shared
    exact own.nodup_namesIn_normalize .header shared

def twiceDeclared : PlannedOperation where
  endpoint := ⟨"/a", .get, { (default : Operation) with
    parameters := [⟨"X-Id", .header, false, none, none⟩, ⟨"X-Id", .header, true, none, none⟩] }⟩
  names := Names.ofBase "get_a" .camel .pascal

/-- The object type of its headers declares the key twice. -/
theorem header_declared_twice :
    let document : Document := ⟨"3.0.0", ⟨"T", "1", none⟩, [], none, [], by decide⟩
    let shape := (of ⟨document, .pascal, false⟩ twiceDeclared).value
    shape.headerMembers.map (fun m => (m.key, m.type)) =
        [("headers", "\x7b\n  \"X-Id\"?: any;\n  \"X-Id\": any;\n\x7d")] ∧
      shape.headerTypes.map (fun m => Code.propertyKey m.1.name) = ["\"X-Id\"", "\"X-Id\""] := by
  decide +kernel

end RequestShape

end OpenApiClient
