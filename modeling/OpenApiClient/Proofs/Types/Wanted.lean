import OpenApiClient.Proofs.Request.Coverage
import OpenApiClient.Proofs.Types.Exported

/-!
# Which types operations have

Whether an operation has a type can be told from the document. It has one for its request if it
takes any input (`isEmpty_of_iff`), one for its data if the schema of its response has a type to
name (`dataDeclarations_ne_nil_iff`), and always one for its response
(`exists_mem_wantedDeclarations_iff`). So can the names of the types that a file declares
(`mem_declaredNames_iff`, `mem_operationTypes_iff`).
-/

namespace OpenApiClient

open Code (Declaration)

/-- Whether there is anything to pass to an operation: a placeholder that has a name, a parameter of
the query, a header or a body. -/
def PlannedOperation.TakesInput (op : PlannedOperation) : Prop :=
  (∃ name ∈ PathTemplate.namesBetween op.endpoint.path, name ≠ "") ∨
    (∃ p ∈ op.operation.parameters, p.location = .query ∨ p.location = .header) ∨
      op.operation.requestBody.isSome = true

namespace RequestShape

variable {t : TypeContext} {op : PlannedOperation}

theorem isEmpty_iff {s : RequestShape} :
    s.isEmpty = true ↔ s.path = [] ∧ s.query = [] ∧ s.headers = [] ∧ s.body = .absent := by
  cases hbody : s.body <;> simp [isEmpty, hbody, and_assoc]

/-- An empty shape has no field for any input, so there is none. -/
theorem not_takesInput_of_isEmpty (h : (of t op).value.isEmpty = true) : ¬op.TakesInput := by
  obtain ⟨hpath, hquery, hheaders, hbody⟩ := isEmpty_iff.mp h
  have hplaceholder : ∀ name, name ∉ PathTemplate.placeholders op.endpoint.path := by
    intro name hname
    obtain ⟨f, hf, -⟩ := exists_path_field t hname
    rw [hpath] at hf
    exact List.not_mem_nil hf
  have hfield : ∀ name, name ∉ (of t op).value.fieldNames := by
    intro name
    rw [fieldNames, otherNames, hpath, hquery, hheaders, hbody]
    exact List.not_mem_nil
  -- an input has a field, or its name is that of a field
  rintro (⟨name, hname, hne⟩ | ⟨p, hp, hlocation | hlocation⟩ | hsome)
  · exact hplaceholder name (PathTemplate.mem_placeholders.mpr ⟨hname, hne⟩)
  · rcases query_accounted t {} (Operation.mem_parametersIn.mpr ⟨hp, hlocation⟩) with hf | ⟨hf, -⟩
    · rw [hquery] at hf
      exact List.not_mem_nil hf
    · exact hfield _ hf
  · rcases header_accounted t {} (Operation.mem_parametersIn.mpr ⟨hp, hlocation⟩) with
      hf | ⟨hf, -⟩
    · rw [hheaders] at hf
      exact List.not_mem_nil hf
    · exact hplaceholder _ hf
  · obtain ⟨b, hb⟩ := Option.isSome_iff_exists.mp hsome
    cases hproperties : b.schema?.bind Schema.properties? with
    | none =>
      rcases body_accounted t {} hb hproperties with hwhole | ⟨hf, -⟩
      · rw [hbody] at hwhole
        exact BodyShape.noConfusion hwhole
      · exact hplaceholder _ hf
    | some declared =>
      have hfields := (bodyPart_properties t hb hproperties).1
      have habsent : (bodyPart t op).value = .absent := hbody
      rw [habsent] at hfields
      exact BodyShape.noConfusion hfields

/-- Without any input all parts of a shape are empty. -/
theorem isEmpty_of_not_takesInput (h : ¬op.TakesInput) : (of t op).value.isEmpty = true := by
  have hplaceholders : PathTemplate.placeholders op.endpoint.path = [] := by
    apply List.eq_nil_iff_forall_not_mem.mpr
    intro name hname
    exact h (Or.inl ⟨name, PathTemplate.mem_placeholders.mp hname⟩)
  have hparameters : ∀ location, location = .query ∨ location = .header →
      op.operation.parametersIn location = [] := by
    intro location hlocation
    apply List.eq_nil_iff_forall_not_mem.mpr
    intro p hp
    obtain ⟨hmem, heq⟩ := Operation.mem_parametersIn.mp hp
    exact h (Or.inr (Or.inl ⟨p, hmem, heq ▸ hlocation⟩))
  have hbody : op.operation.requestBody = none := by
    cases hb : op.operation.requestBody with
    | none => rfl
    | some b =>
      have hsome : op.operation.requestBody.isSome = true := by
        rw [hb]
        rfl
      exact absurd (Or.inr (Or.inr hsome)) h
  rw [isEmpty_iff]
  refine ⟨?_, ?_, ?_, ?_⟩
  · rw [value_of, hplaceholders]
    rfl
  · show (queryFields t op).value.1 = []
    rw [queryFields, hparameters .query (Or.inl rfl)]
    rfl
  · rw [headers_of, hparameters .header (Or.inr rfl)]
    exact ite_self _
  · show (bodyPart t op).value = .absent
    rw [bodyPart, bodyOf, hbody]
    rfl

/-- The shape of a request is empty exactly if the operation takes no input. -/
theorem isEmpty_of_iff : (of t op).value.isEmpty = true ↔ ¬op.TakesInput :=
  ⟨not_takesInput_of_isEmpty, isEmpty_of_not_takesInput⟩

end RequestShape

/-! ## Data -/

/-- The schemas of responses that give the data a type of their own. -/
inductive Schema.NamesData : Schema → Prop
  | reference (notes : Notes) (pointer : String) : NamesData (.reference notes pointer)
  | array (notes : Notes) (items : Option Schema) : NamesData (.array notes items)
  | object (notes : Notes) (property : String × Schema) (properties : List (String × Schema))
      (required : List String) (additional : Option Schema) :
      NamesData (.object notes (property :: properties) required additional)

theorem DataShape.dataDeclarations_ne_nil_iff {t : TypeContext} {op : PlannedOperation} :
    dataDeclarations op (of t op).value ≠ [] ↔
      ∃ s, op.operation.successSchema? = some s ∧ s.NamesData := by
  cases hs : op.operation.successSchema? with
  | none => simp [of, hs, dataDeclarations]
  | some s =>
    have hiff : dataDeclarations op (of t op).value ≠ [] ↔ s.NamesData := by
      rw [of, hs]
      cases s with
      | reference notes pointer => exact iff_of_true (List.cons_ne_nil _ _) (.reference _ _)
      | array notes items => exact iff_of_true (List.cons_ne_nil _ _) (.array _ _)
      | object notes properties required additional =>
        cases properties with
        | nil => exact iff_of_false (fun h => h rfl) (fun h => by cases h)
        | cons property properties =>
          exact iff_of_true (List.cons_ne_nil _ _) (.object _ _ _ _ _)
      | _ => exact iff_of_false (fun h => h rfl) (fun h => by cases h)
    simp [hiff]

/-! ## Types of operations -/

/-- The names of the types that an operation has. -/
inductive PlannedOperation.HasType (op : PlannedOperation) : String → Prop
  | request (takes : op.TakesInput) : op.HasType op.names.requestType
  | data {s : Schema} (schema : op.operation.successSchema? = some s) (names : s.NamesData) :
      op.HasType op.names.dataType
  | response : op.HasType op.names.responseType

theorem PlannedOperation.HasType.mem_typeNames {op : PlannedOperation} {name : String}
    (h : op.HasType name) : name ∈ op.names.typeNames := by
  cases h <;> simp [Names.typeNames]

theorem exists_mem_wantedDeclarations_iff {t : TypeContext} {op : PlannedOperation}
    {name : String} :
    (∃ decl ∈ wantedDeclarations t op (RequestShape.of t op).value, decl.name = name) ↔
      op.HasType name := by
  constructor
  · rintro ⟨decl, hdecl, rfl⟩
    rcases List.mem_append.mp hdecl with hdecl | hdecl
    · rcases List.mem_append.mp hdecl with hdecl | hdecl
      · unfold requestDeclarations at hdecl
        split_ifs at hdecl with hempty
        · exact absurd hdecl List.not_mem_nil
        · rw [List.mem_singleton.mp hdecl]
          exact .request (not_not.mp (mt RequestShape.isEmpty_of_iff.mpr hempty))
      · have hne := List.ne_nil_of_mem hdecl
        obtain ⟨s, hs, hnames⟩ := DataShape.dataDeclarations_ne_nil_iff.mp hne
        rw [Client.name_of_mem_dataDeclarations hdecl]
        exact .data hs hnames
    · rw [List.mem_singleton.mp hdecl]
      exact .response
  · intro h
    cases h with
    | request htakes =>
      have hempty : ¬(RequestShape.of t op).value.isEmpty = true := fun h =>
        RequestShape.not_takesInput_of_isEmpty h htakes
      rw [wantedDeclarations, requestDeclarations, if_neg hempty]
      exact ⟨_, List.mem_append_left _ (List.mem_append_left _ List.mem_cons_self), rfl⟩
    | data hs hnames =>
      obtain ⟨decl, hdecl⟩ := List.exists_mem_of_ne_nil _
        (DataShape.dataDeclarations_ne_nil_iff.mpr ⟨_, hs, hnames⟩)
      exact ⟨decl, List.mem_append_left _ (List.mem_append_right _ hdecl),
        Client.name_of_mem_dataDeclarations hdecl⟩
    | response => exact ⟨_, List.mem_append_right _ List.mem_cons_self, rfl⟩

/-! ## Declared types -/

section Declared

variable {t : TypeContext} {components : List (String × Schema)} {ops : List PlannedOperation}
  {name : String}

theorem mem_componentTypes_iff :
    name ∈ (componentTypes t components).map Declaration.name ↔
      ∃ e ∈ components, t.typeName e.1 = name := by
  have honce := declaredOnce_schemaDeclarations t components []
  rw [List.mem_map]
  constructor
  · rintro ⟨decl, hdecl, rfl⟩
    obtain ⟨⟨e, he, heq⟩, -⟩ := name_of_mem_componentTypes hdecl
    exact ⟨e, he, heq.symm⟩
  · rintro ⟨e, he, rfl⟩
    have hdeclared : t.typeName e.1 ∈ (schemaDeclarations t [] components).value.2 :=
      typeName_mem_schemaDeclarations he
    exact ((honce.mem_after _).mp hdeclared).resolve_left List.not_mem_nil

/-- The types of operations are declared but for those that have the type name of a schema. -/
theorem mem_operationTypes_iff :
    name ∈ (operationTypes t components ops).map Declaration.name ↔
      (∃ op ∈ ops, op.HasType name) ∧ ∀ e ∈ components, t.typeName e.1 ≠ name := by
  have honce := declaredOnce_operationsDeclarations t (withShapes t ops)
    (schemaDeclarations t [] components).value.2
  have hschemas : name ∉ (schemaDeclarations t [] components).value.2 ↔
      ∀ e ∈ components, t.typeName e.1 ≠ name := by
    have hafter := (declaredOnce_schemaDeclarations t components []).mem_after name
    rw [hafter, ← List.mem_map, ← componentTypes, mem_componentTypes_iff]
    simp only [List.not_mem_nil, false_or, not_exists, not_and]
  rw [← hschemas, List.mem_map]
  constructor
  · rintro ⟨decl, hdecl, rfl⟩
    obtain ⟨p, hp, hwanted⟩ := exists_of_mem_operationsDeclarations hdecl
    obtain ⟨op, hop, rfl⟩ := List.mem_map.mp hp
    refine ⟨⟨op, hop, ?_⟩, honce.fresh decl hdecl⟩
    exact exists_mem_wantedDeclarations_iff.mp ⟨decl, hwanted, rfl⟩
  · rintro ⟨⟨op, hop, htype⟩, hfresh⟩
    obtain ⟨decl, hwanted, rfl⟩ := (exists_mem_wantedDeclarations_iff (t := t)).mpr htype
    have hshaped : (op, (RequestShape.of t op).value) ∈ withShapes t ops :=
      List.mem_map.mpr ⟨op, hop, rfl⟩
    have hdeclared : decl.name ∈ (operationsDeclarations t (withShapes t ops)
        (schemaDeclarations t [] components).value.2).value.2 :=
      name_mem_operationsDeclarations hwanted hshaped
    exact ((honce.mem_after _).mp hdeclared).resolve_left hfresh

/-- The names of the declared types are the type names of schemas and the names of the types of
operations. -/
theorem mem_declaredNames_iff :
    name ∈ declaredNames t components ops ↔
      (∃ e ∈ components, t.typeName e.1 = name) ∨ ∃ op ∈ ops, op.HasType name := by
  rw [declaredNames, declaredTypes, List.map_append, List.mem_append, mem_componentTypes_iff,
    mem_operationTypes_iff]
  constructor
  · rintro (hschema | ⟨hop, -⟩)
    · exact Or.inl hschema
    · exact Or.inr hop
  · rintro (hschema | hop)
    · exact Or.inl hschema
    · by_cases hschema : ∃ e ∈ components, t.typeName e.1 = name
      · exact Or.inl hschema
      · exact Or.inr ⟨hop, fun e he heq => hschema ⟨e, he, heq⟩⟩

end Declared

end OpenApiClient
