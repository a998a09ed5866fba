import OpenApiClient.Proofs.Noted
import OpenApiClient.Proofs.Types.Declared
import OpenApiClient.Proofs.Types.Visited

/-!
# Declarations over known names

Every type in a declaration is the text of a type expression that is made from schemas of the
document. A declaration is closed over names if all these expressions mention known names only. The
declaration of a schema is closed where the schema is covered (`closed_schemaDeclaration`), and
those of an operation where its schemas are (`closed_wantedDeclarations`).
-/

namespace OpenApiClient

open Code (Declaration Member TypeExpr)

/-- Whether a text is the text of a type that mentions known names only. -/
def ClosedText (names : List String) (text : String) : Prop :=
  ∃ type : TypeExpr, text = type.text ∧ type.Closed names

/-- Whether all types in what a declared name stands for mention known names only. -/
def Code.Definition.Closed (names : List String) : Code.Definition → Prop
  | .interface members => ∀ m ∈ members, ClosedText names m.type
  | .alias type => ClosedText names type

variable {c : TypeContext} {names : List String} {location : String} {s : Schema}

theorem closedText_text {type : TypeExpr} (h : type.Closed names) : ClosedText names type.text :=
  ⟨type, rfl, h⟩

theorem closedText_named {name : String} (h : (TypeExpr.named name).Closed names) :
    ClosedText names name :=
  ⟨.named name, String.ofList_toList.symm, h⟩

theorem closed_propertyMembers {required : List String} {properties : List (String × Schema)}
    (h : ∀ p ∈ properties, p.2.Covered c names) :
    ∀ m ∈ (propertyMembers c location required properties).value, ClosedText names m.type := by
  intro m hm
  rw [propertyMembers, Noted.value_each] at hm
  obtain ⟨p, hp, rfl⟩ := List.mem_map.mp hm
  exact closedText_text (Schema.closed_toType p.2 (h p hp))

theorem closed_schemaDeclaration (name : String) (h : s.Covered c names) :
    (schemaDeclaration c name s).value.definition.Closed names := by
  unfold schemaDeclaration
  cases hs : s.properties? with
  | none => exact closedText_text (Schema.closed_toType s h)
  | some found => exact closed_propertyMembers fun p hp => h.property hs hp

/-! ## Requests -/

theorem closed_typeOrAny (location : String) {schema : Option Schema}
    (h : ∀ s ∈ schema, s.Covered c names) :
    (typeOrAny c location schema).value.Closed names := by
  cases schema with
  | none => exact TypeExpr.closed_any
  | some s => exact Schema.closed_toType s (h s rfl)

/-- Fields are only made of items, each by the same rule. -/
theorem exists_of_mem_claimFields {α : Type} {nameOf : α → String} {clash : String → Diagnostic}
    {field : α → Noted RequestField} {f : RequestField} :
    ∀ (items : List α) (taken : List String),
      f ∈ (claimFields nameOf clash field taken items).value.1 →
        ∃ a ∈ items, f = (field a).value
  | [], _, hf => by simp [claimFields] at hf
  | a :: rest, taken, hf => by
    rw [claimFields] at hf
    split at hf
    · obtain ⟨b, hb, heq⟩ := exists_of_mem_claimFields rest taken hf
      exact ⟨b, List.mem_cons_of_mem _ hb, heq⟩
    · rcases List.mem_cons.mp hf with rfl | hf
      · exact ⟨a, List.mem_cons_self, rfl⟩
      · obtain ⟨b, hb, heq⟩ := exists_of_mem_claimFields rest (nameOf a :: taken) hf
        exact ⟨b, List.mem_cons_of_mem _ hb, heq⟩

def Operation.Covered (c : TypeContext) (names : List String) (op : Operation) : Prop :=
  ∀ s ∈ op.schemas, s.Covered c names

theorem Operation.Covered.parameter {op : Operation} (h : op.Covered c names) {p : Parameter}
    (hp : p ∈ op.parameters) : ∀ s ∈ p.schema, s.Covered c names := by
  intro s hs
  refine h s ?_
  rw [Operation.schemas, List.append_assoc]
  exact List.mem_append_left _ (List.mem_filterMap.mpr ⟨p, hp, hs⟩)

theorem Operation.Covered.body {op : Operation} (h : op.Covered c names) :
    ∀ s ∈ op.bodySchema?, s.Covered c names := by
  intro s hs
  refine h s ?_
  rw [Operation.schemas]
  exact List.mem_append_left _ (List.mem_append_right _ (Option.mem_toList.mpr hs))

theorem Operation.Covered.success {op : Operation} (h : op.Covered c names) :
    ∀ s ∈ op.successSchema?, s.Covered c names := by
  intro s hs
  refine h s ?_
  rw [Operation.schemas]
  exact List.mem_append_right _ (Option.mem_toList.mpr hs)

theorem Parameter.closed_field (location : String) {op : Operation} (h : op.Covered c names)
    {p : Parameter} (hp : p ∈ op.parameters) : (p.field c location).value.type.Closed names :=
  closed_typeOrAny location (h.parameter hp)

namespace RequestShape

/-- Whether the types of all fields of a body mention known names only. -/
def BodyClosed (names : List String) : BodyShape → Prop
  | .absent => True
  | .fields fields => ∀ f ∈ fields, f.type.Closed names
  | .whole type _ => type.Closed names

/-- Whether all types in a shape mention known names only. -/
structure Closed (names : List String) (shape : RequestShape) : Prop where
  path : ∀ f ∈ shape.path, f.type.Closed names
  query : ∀ f ∈ shape.query, f.type.Closed names
  headers : ∀ f ∈ shape.headers, f.type.Closed names
  body : BodyClosed names shape.body

theorem closed_placeholderField {op : Operation} (h : op.Covered c names) (name : String) :
    (placeholderField c location op name).value.type.Closed names := by
  unfold placeholderField
  cases hfind : (op.parametersIn .path).find? fun p => p.name == name with
  | none => exact TypeExpr.closed_builtin (by decide)
  | some p =>
    have hp := Operation.mem_parametersIn.mp (List.mem_of_find?_eq_some hfind)
    exact Parameter.closed_field location h hp.1

theorem closed_bodyOf {op : Operation} (h : op.Covered c names) (keepBody : Bool)
    (taken : List String) : BodyClosed names (bodyOf c location op keepBody taken).value := by
  unfold bodyOf
  cases hbody : op.requestBody with
  | none => trivial
  | some body =>
    have hcovered : ∀ s ∈ body.schema?, s.Covered c names := by
      intro s hs
      refine h.body s ?_
      rw [Operation.bodySchema?, hbody]
      exact hs
    cases hprops : body.schema?.bind Schema.properties? with
    | none =>
      simp only [hprops]
      split_ifs
      · exact closed_typeOrAny location hcovered
      · trivial
    | some found =>
      obtain ⟨s, hs, hsprops⟩ := Option.bind_eq_some_iff.mp hprops
      simp only [hprops]
      intro f hf
      obtain ⟨p, hp, rfl⟩ := exists_of_mem_claimFields _ _ hf
      exact Schema.closed_toType p.2 ((hcovered s hs).property hsprops hp)

/-- The fields of an operation have types that mention known names only. -/
theorem closed_of {op : PlannedOperation} (h : op.operation.Covered c names) :
    Closed names (of c op).value where
  path := by
    have hpath : (of c op).value.path =
        (Noted.each (placeholderField c op.location op.operation)
          (PathTemplate.placeholders op.endpoint.path)).value := rfl
    intro f hf
    rw [hpath, Noted.value_each] at hf
    obtain ⟨name, -, rfl⟩ := List.mem_map.mp hf
    exact closed_placeholderField h name
  query := by
    intro f hf
    obtain ⟨p, hp, rfl⟩ := exists_of_mem_claimFields _ _ hf
    exact Parameter.closed_field _ h (Operation.mem_parametersIn.mp hp).1
  headers := by
    intro f hf
    -- the headers are all kept or, if a placeholder has their name, all left out
    obtain ⟨ps, hps, hsub⟩ : ∃ ps, (of c op).value.headers =
        (Noted.each (Parameter.field c op.location) ps).value ∧
          ps ⊆ op.operation.parametersIn .header := by
      refine ⟨_, rfl, ?_⟩
      split_ifs
      · exact List.Subset.refl _
      · exact List.nil_subset _
    rw [hps, Noted.value_each] at hf
    obtain ⟨p, hp, rfl⟩ := List.mem_map.mp hf
    exact Parameter.closed_field _ h (Operation.mem_parametersIn.mp (hsub hp)).1
  body := closed_bodyOf h _ _

theorem closed_member {fields : List RequestField} (h : ∀ f ∈ fields, f.type.Closed names) :
    ∀ m ∈ fields.map RequestField.member, ClosedText names m.type := by
  intro m hm
  obtain ⟨f, hf, rfl⟩ := List.mem_map.mp hm
  exact closedText_text (h f hf)

theorem closed_members {shape : RequestShape} (h : shape.Closed names) :
    ∀ m ∈ shape.members, ClosedText names m.type := by
  intro m hm
  rw [members, List.map_append, List.mem_append, List.mem_append, List.mem_append] at hm
  rcases hm with ((hm | hm) | hm) | hm
  · exact closed_member h.path m hm
  · exact closed_member h.query m hm
  · unfold headerMembers at hm
    split_ifs at hm
    · simp at hm
    · rw [List.mem_singleton.mp hm]
      refine closedText_text (TypeExpr.membersClosed_iff.mpr ?_)
      intro member hmember
      obtain ⟨f, hf, rfl⟩ := List.mem_map.mp hmember
      exact h.headers f hf
  · have hbody := h.body
    unfold bodyMembers at hm
    cases hshape : shape.body with
    | absent => simp [hshape] at hm
    | fields fields =>
      rw [hshape] at hm hbody
      exact closed_member hbody m hm
    | whole type required =>
      rw [hshape] at hm hbody
      rw [List.mem_singleton.mp hm]
      exact closedText_text hbody

end RequestShape

/-! ## Responses -/

/-- Whether the types of the data of a response mention known names only. -/
def DataShape.Closed (names : List String) : DataShape → Prop
  | .alias type => type.Closed names
  | .interface members => ∀ m ∈ members, ClosedText names m.type
  | .inline type => type.Closed names

theorem DataShape.closed_of {op : PlannedOperation} (h : op.operation.Covered c names) :
    (DataShape.of c op).value.Closed names := by
  unfold DataShape.of
  cases hsuccess : op.operation.successSchema? with
  | none => exact TypeExpr.closed_any
  | some s =>
    have hs : s.Covered c names := h.success s hsuccess
    have htype : (s.toType c).Closed names := Schema.closed_toType s hs
    simp only
    split
    · exact htype
    · exact htype
    · cases hprops : s.properties? with
      | none => exact htype
      | some found => exact closed_propertyMembers fun p hp => hs.property hprops hp

theorem closed_dataDeclarations {op : PlannedOperation} {data : DataShape}
    (h : data.Closed names) : ∀ d ∈ dataDeclarations op data, d.definition.Closed names := by
  intro d hd
  cases data with
  | «alias» type =>
    rw [List.mem_singleton.mp hd]
    exact closedText_text h
  | interface members =>
    rw [List.mem_singleton.mp hd]
    exact h
  | inline type => simp [dataDeclarations] at hd

/-- The type of a response refers to that of its data by name, if that has one. -/
theorem closed_responseDeclaration {op : PlannedOperation} {data : DataShape}
    (h : data.Closed names) (hnames : ∀ d ∈ dataDeclarations op data, d.name ∈ names) :
    (responseDeclaration c op data).definition.Closed names := by
  have hdata : ClosedText names (dataTypeText op data) := by
    cases data with
    | «alias» type => exact closedText_named (Or.inr (hnames _ List.mem_cons_self))
    | interface members => exact closedText_named (Or.inr (hnames _ List.mem_cons_self))
    | inline type => exact closedText_text h
  intro m hm
  simp only [List.mem_cons, List.not_mem_nil, or_false] at hm
  rcases hm with rfl | rfl | rfl
  · exact closedText_named (TypeExpr.closed_builtin (by decide))
  · exact closedText_named (TypeExpr.closed_builtin (by decide))
  · exact hdata

/-- All types that an operation asks for mention known names only, if its schemas are covered and
the names of these types are known. -/
theorem closed_wantedDeclarations {op : PlannedOperation} (h : op.operation.Covered c names)
    (hnames : ∀ d ∈ wantedDeclarations c op (RequestShape.of c op).value, d.name ∈ names) :
    ∀ d ∈ wantedDeclarations c op (RequestShape.of c op).value, d.definition.Closed names := by
  intro d hd
  have hdata : (DataShape.of c op).value.Closed names := DataShape.closed_of h
  simp only [wantedDeclarations, List.mem_append, List.mem_singleton] at hnames hd
  rcases hd with (hd | hd) | rfl
  · unfold requestDeclarations at hd
    split_ifs at hd
    · simp at hd
    · rw [List.mem_singleton.mp hd]
      exact RequestShape.closed_members (RequestShape.closed_of h)
  · exact closed_dataDeclarations hdata d hd
  · exact closed_responseDeclaration hdata fun d hd => hnames d (Or.inl (Or.inr hd))

end OpenApiClient
