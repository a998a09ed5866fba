import OpenApiClient.Proofs.Request.Agreement

/-!
# Nothing of a request is lost

All inputs of an operation compete for the names of one object, and an input whose name is taken is
left out. Whatever is left out is reported at the operation, under its name (`inputs_accounted`): a
parameter or a property of the body has its own field in its part of the request, or its name is
that of another field and a diagnostic says so. The reports reach every pass, as a pass drops a
diagnostic only if it holds the very same one.

The names are claimed in a fixed order: placeholders, the two fixed fields, query, body
(`claimedFirst`, `queryFields`). One lemma about claims (`mem_claimFields`) serves the two parts
whose fields are claimed one by one.
-/

namespace OpenApiClient

section Claims

variable {α : Type} {nameOf : α → String} {clash : String → Diagnostic}
  {field : α → Noted RequestField}

theorem claimFields_of_mem {taken : List String} {a : α} {rest : List α}
    (h : nameOf a ∈ taken) :
    claimFields nameOf clash field taken (a :: rest) =
      ⟨(claimFields nameOf clash field taken rest).value,
        clash (nameOf a) :: (claimFields nameOf clash field taken rest).notes⟩ := by
  rw [claimFields, if_pos (List.contains_iff_mem.mpr h)]
  rfl

theorem claimFields_of_not_mem {taken : List String} {a : α} {rest : List α}
    (h : nameOf a ∉ taken) :
    claimFields nameOf clash field taken (a :: rest) =
      ⟨((field a).value :: (claimFields nameOf clash field (nameOf a :: taken) rest).value.1,
          (claimFields nameOf clash field (nameOf a :: taken) rest).value.2),
        (field a).notes ++ (claimFields nameOf clash field (nameOf a :: taken) rest).notes⟩ := by
  rw [claimFields, if_neg (mt List.contains_iff_mem.mp h)]
  simp only [bind, pure, List.append_nil]

/-- What is taken after a claim is what was taken before and the names of the new fields. -/
theorem perm_taken_claimFields (hname : ∀ a, (field a).value.name = nameOf a) (items : List α)
    (taken : List String) :
    (claimFields nameOf clash field taken items).value.2.Perm
      (taken ++ (claimFields nameOf clash field taken items).value.1.map RequestField.name) := by
  induction items generalizing taken with
  | nil => simp [claimFields]
  | cons a rest ih =>
    by_cases h : nameOf a ∈ taken
    · rw [claimFields_of_mem h]
      exact ih taken
    · rw [claimFields_of_not_mem h]
      simp only [List.map_cons, hname]
      exact (ih (nameOf a :: taken)).trans List.perm_middle.symm

theorem mem_taken_claimFields (hname : ∀ a, (field a).value.name = nameOf a) {name : String}
    (items : List α) (taken : List String) :
    name ∈ (claimFields nameOf clash field taken items).value.2 ↔
      name ∈ taken ∨
        name ∈ (claimFields nameOf clash field taken items).value.1.map RequestField.name :=
  (perm_taken_claimFields hname items taken).mem_iff.trans List.mem_append

/-- An item has its own field, or its name is taken by another one and the clash is noted. -/
theorem mem_claimFields (hname : ∀ a, (field a).value.name = nameOf a) {a : α} {items : List α}
    {taken : List String} (ha : a ∈ items) :
    (field a).value ∈ (claimFields nameOf clash field taken items).value.1 ∨
      (nameOf a ∈ (claimFields nameOf clash field taken items).value.2 ∧
        clash (nameOf a) ∈ (claimFields nameOf clash field taken items).notes) := by
  induction items generalizing taken with
  | nil => exact absurd ha List.not_mem_nil
  | cons b rest ih =>
    by_cases h : nameOf b ∈ taken
    · have hkept : nameOf b ∈ (claimFields nameOf clash field taken rest).value.2 :=
        (mem_taken_claimFields hname rest taken).mpr (Or.inl h)
      rw [claimFields_of_mem h]
      rcases List.mem_cons.mp ha with rfl | ha
      · exact Or.inr ⟨hkept, List.mem_cons_self⟩
      · rcases ih ha with hfield | ⟨htaken, hnote⟩
        · exact Or.inl hfield
        · exact Or.inr ⟨htaken, List.mem_cons_of_mem _ hnote⟩
    · rw [claimFields_of_not_mem h]
      rcases List.mem_cons.mp ha with rfl | ha
      · exact Or.inl List.mem_cons_self
      · rcases ih ha with hfield | ⟨htaken, hnote⟩
        · exact Or.inl (List.mem_cons_of_mem _ hfield)
        · exact Or.inr ⟨htaken, List.mem_append_right _ hnote⟩

end Claims

namespace RequestShape

theorem notes_each_note {α : Type} (report : α → Diagnostic) (items : List α) :
    (Noted.each (fun a => Noted.note (report a)) items).notes = items.map report := by
  rw [Noted.notes_each, List.map_eq_flatMap]
  rfl

variable (c : TypeContext) (op : PlannedOperation)

theorem name_field (location : String) (p : Parameter) :
    (p.field c location).value.name = p.name :=
  rfl

theorem name_propertyField (location : String) (required : List String)
    (property : String × Schema) :
    (propertyField c location required property).value.name = property.1 :=
  rfl

/-! ## The parts of a shape -/

def keepsHeaders : Bool :=
  !(op.operation.parametersIn .header).isEmpty &&
    !(PathTemplate.placeholders op.endpoint.path).contains "headers"

/-- Whether the body of an operation as a whole has a field. -/
def keepsBody : Bool :=
  hasWholeBody op.operation && !(PathTemplate.placeholders op.endpoint.path).contains "body"

/-- The names that are claimed before those of the query. -/
def claimedFirst : List String :=
  PathTemplate.placeholders op.endpoint.path ++ (if keepsHeaders op then ["headers"] else []) ++
    (if keepsBody op then ["body"] else [])

/-- The fields of the query, and the names that are claimed after them. -/
def queryFields : Noted (List RequestField × List String) :=
  claimFields Parameter.name (clashNote op.location "query parameter")
    (Parameter.field c op.location) (claimedFirst op) (op.operation.parametersIn .query)

def headerFields : Noted (List RequestField) :=
  Noted.each (Parameter.field c op.location)
    (if keepsHeaders op then op.operation.parametersIn .header else [])

/-- The body, whose fields are claimed last. -/
def bodyPart : Noted BodyShape :=
  bodyOf c op.location op.operation (keepsBody op) (queryFields c op).value.2

theorem value_of :
    (of c op).value =
      ⟨(Noted.each (placeholderField c op.location op.operation)
          (PathTemplate.placeholders op.endpoint.path)).value,
        (queryFields c op).value.1, (headerFields c op).value, (bodyPart c op).value⟩ :=
  rfl

def noteParts : List (List Diagnostic) :=
  [(Noted.each (placeholderField c op.location op.operation)
      (PathTemplate.placeholders op.endpoint.path)).notes,
    (unmatched op.operation (PathTemplate.placeholders op.endpoint.path)).map
      fun p => unmatchedNote op.location p.name,
    (keepContainer op.location "headers" (!(op.operation.parametersIn .header).isEmpty)
      (PathTemplate.placeholders op.endpoint.path)).notes,
    (keepContainer op.location "body" (hasWholeBody op.operation)
      (PathTemplate.placeholders op.endpoint.path)).notes,
    (queryFields c op).notes,
    (headerFields c op).notes,
    (op.operation.parametersIn .cookie).map fun p => cookieNote op.location p.name,
    (bodyPart c op).notes]

theorem notes_of : (of c op).notes = (noteParts c op).flatten := by
  have hunmatched := notes_each_note (fun p : Parameter => unmatchedNote op.location p.name)
    (unmatched op.operation (PathTemplate.placeholders op.endpoint.path))
  have hcookie := notes_each_note (fun p : Parameter => cookieNote op.location p.name)
    (op.operation.parametersIn .cookie)
  rw [noteParts, ← hunmatched, ← hcookie]
  simp only [of, Noted.notes_bind, Noted.notes_pure, List.append_nil, List.flatten_cons,
    List.flatten_nil]
  rfl

/-- A fixed field that is wanted is kept, or a placeholder has its name and this is noted. -/
theorem containerNote_mem_keepContainer {location name : String} {placeholders : List String}
    (h : name ∈ placeholders) :
    containerNote location name ∈ (keepContainer location name true placeholders).notes := by
  have hcontains : placeholders.contains name = true := List.contains_iff_mem.mpr h
  rw [keepContainer, hcontains]
  exact List.mem_cons_self

theorem headers_of :
    (of c op).value.headers =
      if keepsHeaders op then
        (op.operation.parametersIn .header).map fun p => (p.field c op.location).value
      else [] := by
  show (headerFields c op).value = _
  rw [headerFields, Noted.value_each]
  split_ifs <;> rfl

theorem isEmpty_headers : (of c op).value.headers.isEmpty = !keepsHeaders op := by
  rw [headers_of]
  cases hkeep : keepsHeaders op with
  | false => rfl
  | true =>
    rw [keepsHeaders, Bool.and_eq_true, Bool.not_eq_true'] at hkeep
    simpa using hkeep.1

variable {op}

theorem hasWholeBody_iff {operation : Operation} :
    hasWholeBody operation = true ↔
      ∃ b, operation.requestBody = some b ∧ b.schema?.bind Schema.properties? = none := by
  rw [hasWholeBody]
  cases operation.requestBody with
  | none => simp
  | some b => simp

/-- A body that is kept as a whole is that of the operation. -/
theorem bodyPart_whole {b : RequestBody} (hb : op.operation.requestBody = some b)
    (hwhole : b.schema?.bind Schema.properties? = none) (hkeep : keepsBody op = true) :
    (bodyPart c op).value = .whole (typeOrAny c op.location b.schema?).value b.required := by
  rw [bodyPart, bodyOf, hb]
  simp only [hwhole, hkeep, if_true]
  rfl

variable (op) in
/-- The fields of a body with declared properties, which are claimed after all others. -/
def propertyFields (required : List String) (properties : List (String × Schema)) :
    Noted (List RequestField × List String) :=
  claimFields Prod.fst (clashNote op.location "body field")
    (propertyField c op.location required) (queryFields c op).value.2 properties

theorem bodyPart_properties {b : RequestBody} (hb : op.operation.requestBody = some b)
    {properties : List (String × Schema)} {required : List String}
    (hprops : b.schema?.bind Schema.properties? = some (properties, required)) :
    (bodyPart c op).value = .fields (propertyFields c op required properties).value.1 ∧
      (bodyPart c op).notes = (propertyFields c op required properties).notes := by
  rw [bodyPart, bodyOf, hb]
  simp only [hprops, Noted.value_bind, Noted.notes_bind, Noted.value_pure, Noted.notes_pure,
    List.append_nil]
  exact ⟨rfl, rfl⟩

/-! ## Taken names are names of fields -/

theorem placeholder_mem_fieldNames {name : String}
    (h : name ∈ PathTemplate.placeholders op.endpoint.path) :
    name ∈ (of c op).value.fieldNames := by
  rw [fieldNames, map_name_path]
  exact List.mem_append_left _ h

theorem headers_mem_fieldNames (hkeep : keepsHeaders op = true) :
    "headers" ∈ (of c op).value.fieldNames := by
  rw [fieldNames, otherNames, isEmpty_headers, hkeep]
  simp

theorem body_mem_fieldNames (hkeep : keepsBody op = true) :
    "body" ∈ (of c op).value.fieldNames := by
  have hwanted := hkeep
  rw [keepsBody, Bool.and_eq_true, hasWholeBody_iff] at hwanted
  obtain ⟨⟨b, hb, hwhole⟩, -⟩ := hwanted
  have hbody : (of c op).value.body.names = ["body"] := by
    show (bodyPart c op).value.names = _
    rw [bodyPart_whole c hb hwhole hkeep]
    rfl
  rw [fieldNames, otherNames, hbody]
  simp

/-- The names that are claimed when the query is done belong to fields. -/
theorem taken_subset_fieldNames :
    (queryFields c op).value.2 ⊆ (of c op).value.fieldNames := by
  intro name hname
  have htaken := (mem_taken_claimFields (name_field c op.location) _ _).mp hname
  rw [claimedFirst, List.mem_append, List.mem_append] at htaken
  rcases htaken with ((hpath | hheaders) | hbody) | hquery
  · exact placeholder_mem_fieldNames c hpath
  · split_ifs at hheaders with hkeep
    · rw [List.mem_singleton.mp hheaders]
      exact headers_mem_fieldNames c hkeep
    · exact absurd hheaders List.not_mem_nil
  · split_ifs at hbody with hkeep
    · rw [List.mem_singleton.mp hbody]
      exact body_mem_fieldNames c hkeep
    · exact absurd hbody List.not_mem_nil
  · rw [fieldNames, otherNames, List.append_assoc]
    exact List.mem_append_right _ (List.mem_append_left _ hquery)

/-- The names that are claimed when the properties of the body are done belong to fields. -/
theorem taken_properties_subset_fieldNames {b : RequestBody}
    (hb : op.operation.requestBody = some b) {properties : List (String × Schema)}
    {required : List String}
    (hprops : b.schema?.bind Schema.properties? = some (properties, required)) :
    (propertyFields c op required properties).value.2 ⊆ (of c op).value.fieldNames := by
  intro name hname
  rcases (mem_taken_claimFields (name_propertyField c op.location required) _ _).mp hname with
    hbefore | hown
  · exact taken_subset_fieldNames c hbefore
  · have hbody : (of c op).value.body.names =
        (propertyFields c op required properties).value.1.map RequestField.name := by
      show (bodyPart c op).value.names = _
      rw [(bodyPart_properties c hb hprops).1]
      rfl
    rw [fieldNames, otherNames, hbody]
    exact List.mem_append_right _ (List.mem_append_right _ hown)

/-! ## All inputs -/

/-- Whether a pass holds a diagnostic about an operation. -/
def Reports (after : Pass) (op : PlannedOperation) (d : Diagnostic) : Prop :=
  d ∈ after.diagnostics ∧ d.location = some op.location

/-- What becomes of the inputs of an operation, in its shape and in the pass after it: every
placeholder is a required field; a parameter of the path has a field of its name; every other input
has its own field, or its name is that of a field and its clash is reported; and cookies are
reported. -/
structure Accounted (c : TypeContext) (op : PlannedOperation) (after : Pass) : Prop where
  placeholder : ∀ name ∈ PathTemplate.namesBetween op.endpoint.path, name ≠ "" →
    ∃ f ∈ (of c op).value.path, f.name = name ∧ f.required = true
  path : ∀ p ∈ op.operation.parameters, p.location = .path →
    (∃ f ∈ (of c op).value.path, f.name = p.name) ∨
      p.name ∉ PathTemplate.placeholders op.endpoint.path ∧
        Reports after op (unmatchedNote op.location p.name)
  query : ∀ p ∈ op.operation.parameters, p.location = .query →
    (p.field c op.location).value ∈ (of c op).value.query ∨
      p.name ∈ (of c op).value.fieldNames ∧
        Reports after op (clashNote op.location "query parameter" p.name)
  header : ∀ p ∈ op.operation.parameters, p.location = .header →
    (p.field c op.location).value ∈ (of c op).value.headers ∨
      "headers" ∈ PathTemplate.placeholders op.endpoint.path ∧
        Reports after op (containerNote op.location "headers")
  cookie : ∀ p ∈ op.operation.parameters, p.location = .cookie →
    Reports after op (cookieNote op.location p.name) ∧
      (cookieNote op.location p.name).severity = .info
  property : ∀ b ∈ op.operation.requestBody, ∀ properties required,
    b.schema?.bind Schema.properties? = some (properties, required) →
      ∃ fields, (of c op).value.body = .fields fields ∧ ∀ property ∈ properties,
        (propertyField c op.location required property).value ∈ fields ∨
          property.1 ∈ (of c op).value.fieldNames ∧
            Reports after op (clashNote op.location "body field" property.1)
  whole : ∀ b ∈ op.operation.requestBody, b.schema?.bind Schema.properties? = none →
    (of c op).value.body = .whole (typeOrAny c op.location b.schema?).value b.required ∨
      "body" ∈ PathTemplate.placeholders op.endpoint.path ∧
        Reports after op (containerNote op.location "body")

/-- Every placeholder has a field, and it is required. -/
theorem exists_path_field {name : String}
    (h : name ∈ PathTemplate.placeholders op.endpoint.path) :
    ∃ f ∈ (of c op).value.path, f.name = name ∧ f.required = true := by
  have hrequired : (placeholderField c op.location op.operation name).value.required = true := by
    unfold placeholderField
    cases (op.operation.parametersIn .path).find? fun p => p.name == name with
    | none => rfl
    | some p => rfl
  refine ⟨_, ?_, name_placeholderField c op.location op.operation name, hrequired⟩
  rw [value_of, Noted.value_each]
  exact List.mem_map_of_mem h

/-- What is noted about a part of a shape is reported in every pass. -/
theorem reports_of_mem_noteParts (p : Pass) {d : Diagnostic}
    (hlocation : d.location = some op.location) (notes : List Diagnostic)
    (hnotes : notes ∈ noteParts c op) (h : d ∈ notes) :
    Reports (p.recordAll (of c op).notes) op d := by
  refine ⟨(Pass.mem_diagnostics_recordAll _ p).mpr (Or.inr ?_), hlocation⟩
  rw [notes_of]
  exact List.mem_flatten_of_mem hnotes h

section Inputs

variable (p : Pass)

theorem path_accounted {q : Parameter} (hq : q ∈ op.operation.parametersIn .path) :
    (∃ f ∈ (of c op).value.path, f.name = q.name) ∨
      q.name ∉ PathTemplate.placeholders op.endpoint.path ∧
        Reports (p.recordAll (of c op).notes) op (unmatchedNote op.location q.name) := by
  by_cases hmem : q.name ∈ PathTemplate.placeholders op.endpoint.path
  · obtain ⟨f, hf, hname, -⟩ := exists_path_field c hmem
    exact Or.inl ⟨f, hf, hname⟩
  · have hunmatched : q ∈ unmatched op.operation (PathTemplate.placeholders op.endpoint.path) :=
      List.mem_filter.mpr ⟨hq, by simpa using hmem⟩
    refine Or.inr ⟨hmem, reports_of_mem_noteParts c p rfl
      ((unmatched op.operation (PathTemplate.placeholders op.endpoint.path)).map
        fun p => unmatchedNote op.location p.name) ?_ ?_⟩
    · simp [noteParts]
    · exact List.mem_map.mpr ⟨q, hunmatched, rfl⟩

theorem query_accounted {q : Parameter} (hq : q ∈ op.operation.parametersIn .query) :
    (q.field c op.location).value ∈ (of c op).value.query ∨
      q.name ∈ (of c op).value.fieldNames ∧
        Reports (p.recordAll (of c op).notes) op
          (clashNote op.location "query parameter" q.name) := by
  rcases mem_claimFields (name_field c op.location) hq with hfield | ⟨htaken, hnote⟩
  · exact Or.inl hfield
  · refine Or.inr ⟨taken_subset_fieldNames c htaken, ?_⟩
    exact reports_of_mem_noteParts c p rfl (queryFields c op).notes (by simp [noteParts]) hnote

theorem header_accounted {q : Parameter} (hq : q ∈ op.operation.parametersIn .header) :
    (q.field c op.location).value ∈ (of c op).value.headers ∨
      "headers" ∈ PathTemplate.placeholders op.endpoint.path ∧
        Reports (p.recordAll (of c op).notes) op (containerNote op.location "headers") := by
  have hwanted : (op.operation.parametersIn .header).isEmpty = false :=
    List.isEmpty_eq_false_iff.mpr (List.ne_nil_of_mem hq)
  by_cases hmem : "headers" ∈ PathTemplate.placeholders op.endpoint.path
  · refine Or.inr ⟨hmem, ?_⟩
    refine reports_of_mem_noteParts c p rfl _ ?_ (containerNote_mem_keepContainer hmem)
    simp [noteParts, hwanted]
  · left
    have hkeep : keepsHeaders op = true := by simp [keepsHeaders, hwanted, hmem]
    rw [headers_of, if_pos hkeep]
    exact List.mem_map_of_mem hq

theorem cookie_reported {q : Parameter} (hq : q ∈ op.operation.parametersIn .cookie) :
    Reports (p.recordAll (of c op).notes) op (cookieNote op.location q.name) := by
  apply reports_of_mem_noteParts c p rfl
    ((op.operation.parametersIn .cookie).map fun p => cookieNote op.location p.name)
  · simp [noteParts]
  · exact List.mem_map.mpr ⟨q, hq, rfl⟩

theorem property_accounted {b : RequestBody} (hb : op.operation.requestBody = some b)
    {properties : List (String × Schema)} {required : List String}
    (hprops : b.schema?.bind Schema.properties? = some (properties, required))
    {property : String × Schema} (hproperty : property ∈ properties) :
    (propertyField c op.location required property).value ∈
        (propertyFields c op required properties).value.1 ∨
      property.1 ∈ (of c op).value.fieldNames ∧
        Reports (p.recordAll (of c op).notes) op
          (clashNote op.location "body field" property.1) := by
  have hnotes := (bodyPart_properties c hb hprops).2
  rcases mem_claimFields (name_propertyField c op.location required) hproperty with
    hfield | ⟨htaken, hnote⟩
  · exact Or.inl hfield
  · refine Or.inr ⟨taken_properties_subset_fieldNames c hb hprops htaken, ?_⟩
    rw [propertyFields] at hnotes
    exact reports_of_mem_noteParts c p rfl (bodyPart c op).notes (by simp [noteParts])
      (hnotes ▸ hnote)

theorem body_accounted {b : RequestBody} (hb : op.operation.requestBody = some b)
    (hwhole : b.schema?.bind Schema.properties? = none) :
    (of c op).value.body = .whole (typeOrAny c op.location b.schema?).value b.required ∨
      "body" ∈ PathTemplate.placeholders op.endpoint.path ∧
        Reports (p.recordAll (of c op).notes) op (containerNote op.location "body") := by
  have hwanted : hasWholeBody op.operation = true := hasWholeBody_iff.mpr ⟨b, hb, hwhole⟩
  by_cases hmem : "body" ∈ PathTemplate.placeholders op.endpoint.path
  · refine Or.inr ⟨hmem, ?_⟩
    refine reports_of_mem_noteParts c p rfl _ ?_ (containerNote_mem_keepContainer hmem)
    simp [noteParts, hwanted]
  · have hkeep : keepsBody op = true := by simp [keepsBody, hwanted, hmem]
    exact Or.inl (bodyPart_whole c hb hwhole hkeep)

end Inputs

variable (op) in
/-- **Inputs of a request.** Whatever a pass holds before it, after the shape of an operation is
found every input of the operation is accounted for: it has a field in its part of the shape, or
a diagnostic at the operation reports that it has none. -/
theorem inputs_accounted (p : Pass) : Accounted c op (p.recordAll (of c op).notes) := by
  constructor
  case placeholder =>
    intro name hname hne
    exact exists_path_field c (PathTemplate.mem_placeholders.mpr ⟨hname, hne⟩)
  case path =>
    intro q hq hlocation
    exact path_accounted c p (Operation.mem_parametersIn.mpr ⟨hq, hlocation⟩)
  case query =>
    intro q hq hlocation
    exact query_accounted c p (Operation.mem_parametersIn.mpr ⟨hq, hlocation⟩)
  case header =>
    intro q hq hlocation
    exact header_accounted c p (Operation.mem_parametersIn.mpr ⟨hq, hlocation⟩)
  case cookie =>
    intro q hq hlocation
    exact ⟨cookie_reported c p (Operation.mem_parametersIn.mpr ⟨hq, hlocation⟩), rfl⟩
  case property =>
    intro b hb properties required hprops
    refine ⟨_, (bodyPart_properties c hb hprops).1, ?_⟩
    intro property hproperty
    exact property_accounted c p hb hprops hproperty
  case whole =>
    intro b hb hwhole
    exact body_accounted c p hb hwhole

end RequestShape

end OpenApiClient
