import OpenApiClient.Client.Generate
import OpenApiClient.Proofs.Types.Reach

/-!
# What types depend on

The types, shapes and declarations of a client are made from schemas. Of the document they only take
the named schemas that references lead to, so two documents with the same named schemas give the
same source files to the same modules, whatever their paths are (`units_eq`). The proof goes along
the definitions: contexts that agree are not told apart by any of them.
-/

namespace OpenApiClient

/-- Whether two contexts have the same named schemas, the same naming and the same comments. -/
structure TypeContext.Agrees (c c' : TypeContext) : Prop where
  schemas : c.document.schemas = c'.document.schemas
  naming : c.naming = c'.naming
  comments : c.comments = c'.comments

theorem Document.next_eq {d d' : Document} (h : d.schemas = d'.schemas) (name : String) :
    d.next name = d'.next name := by
  simp only [next, schema?, h]

theorem Document.reach_eq {d d' : Document} (h : d.schemas = d'.schemas) :
    ∀ pending reached : List String, d.reach pending reached = d'.reach pending reached := by
  intro pending reached
  induction pending, reached using reach_induction (d := d) with
  | nil reached => rw [reach_nil, reach_nil]
  | old name pending reached hname ih => rw [reach_of_mem hname, reach_of_mem hname, ih]
  | new name pending reached hname ih =>
    rw [reach_of_not_mem hname, reach_of_not_mem hname, ih, next_eq h]

theorem Document.schemasUsedBy_eq {d d' : Document} (h : d.schemas = d'.schemas)
    (operations : List Operation) : d.schemasUsedBy operations = d'.schemasUsedBy operations := by
  simp only [schemasUsedBy, h, reach_eq h]

namespace TypeContext.Agrees

variable {c c' : TypeContext}

/-! ## Schemas -/

theorem typeName_eq (h : c.Agrees c') (name : String) : c.typeName name = c'.typeName name :=
  congrArg (NameStyle.format · name) h.naming

theorem referenceName?_eq (h : c.Agrees c') (pointer : String) :
    c.referenceName? pointer = c'.referenceName? pointer := by
  simp only [TypeContext.referenceName?, Document.schema?, h.schemas, h.typeName_eq]

theorem memberDoc_eq (h : c.Agrees c') (s : Schema) : c.memberDoc s = c'.memberDoc s := by
  rw [TypeContext.memberDoc, TypeContext.memberDoc, h.comments]

mutual

theorem toType_eq (h : c.Agrees c') : ∀ s : Schema, s.toType c = s.toType c'
  | .reference .. => by simp only [Schema.toType, h.referenceName?_eq]
  | .primitive .. | .enumeration .. | .combination .. | .anything .. => by simp only [Schema.toType]
  | .array _ none => by simp only [Schema.toType]
  | .array _ (some items) => by simp only [Schema.toType, toType_eq h items]
  | .object _ [] _ none => by simp only [Schema.toType]
  | .object _ [] _ (some extra) => by simp only [Schema.toType, toType_eq h extra]
  | .object _ (p :: ps) required none => by
    simp only [Schema.toType, memberTypes_eq h required (p :: ps)]
  | .object _ (p :: ps) required (some _) => by
    simp only [Schema.toType, memberTypes_eq h required (p :: ps)]

theorem memberTypes_eq (h : c.Agrees c') (required : List String) :
    ∀ ps : List (String × Schema),
      Schema.memberTypes c required ps = Schema.memberTypes c' required ps
  | [] => rfl
  | (_, s) :: rest => by
    simp only [Schema.memberTypes, Schema.memberHead, h.memberDoc_eq, toType_eq h s,
      memberTypes_eq h required rest]

end

mutual

theorem typeNotes_eq (h : c.Agrees c') (location : String) : ∀ s : Schema,
    s.typeNotes c location = s.typeNotes c' location
  | .reference .. => by simp only [Schema.typeNotes, h.referenceName?_eq]
  | .primitive .. | .enumeration .. | .combination .. | .anything .. => by
    simp only [Schema.typeNotes]
  | .array _ none => by simp only [Schema.typeNotes]
  | .array _ (some items) => by simp only [Schema.typeNotes, typeNotes_eq h location items]
  | .object _ [] _ none => by simp only [Schema.typeNotes]
  | .object _ [] _ (some extra) => by simp only [Schema.typeNotes, typeNotes_eq h location extra]
  | .object _ (p :: ps) _ _ => by simp only [Schema.typeNotes, memberNotes_eq h location (p :: ps)]

theorem memberNotes_eq (h : c.Agrees c') (location : String) : ∀ ps : List (String × Schema),
    Schema.memberNotes c location ps = Schema.memberNotes c' location ps
  | [] => rfl
  | (_, s) :: rest => by
    simp only [Schema.memberNotes, typeNotes_eq h location s, memberNotes_eq h location rest]

end

variable (h : c.Agrees c')
include h

theorem descriptionDoc_eq (description : Option String) :
    c.descriptionDoc description = c'.descriptionDoc description := by
  rw [TypeContext.descriptionDoc, TypeContext.descriptionDoc, h.comments]

theorem typeAt_eq (location : String) (s : Schema) :
    s.typeAt c location = s.typeAt c' location := by
  rw [Schema.typeAt, Schema.typeAt, h.toType_eq, h.typeNotes_eq]

theorem typeOrAny_eq (location : String) (schema : Option Schema) :
    typeOrAny c location schema = typeOrAny c' location schema := by
  cases schema with
  | none => rfl
  | some s => exact h.typeAt_eq location s

theorem propertyMembers_eq (location : String) (required : List String)
    (properties : List (String × Schema)) :
    propertyMembers c location required properties =
      propertyMembers c' location required properties := by
  simp only [propertyMembers, h.typeAt_eq, h.memberDoc_eq]

theorem schemaDeclaration_eq (name : String) (s : Schema) :
    schemaDeclaration c name s = schemaDeclaration c' name s := by
  simp only [schemaDeclaration, h.propertyMembers_eq, h.typeAt_eq, h.typeName_eq,
    h.descriptionDoc_eq]

theorem schemaDeclarations_eq (declared : List String) (schemas : List (String × Schema)) :
    schemaDeclarations c declared schemas = schemaDeclarations c' declared schemas := by
  induction schemas generalizing declared with
  | nil => rfl
  | cons e rest ih => simp only [schemaDeclarations, h.typeName_eq, h.schemaDeclaration_eq, ih]

/-! ## Requests and operations -/

theorem field_eq (location : String) (p : Parameter) :
    p.field c location = p.field c' location := by
  simp only [Parameter.field, h.typeOrAny_eq, h.descriptionDoc_eq]

theorem propertyField_eq (location : String) (required : List String) :
    propertyField c location required = propertyField c' location required := by
  funext property
  simp only [propertyField, h.typeAt_eq, h.memberDoc_eq]

theorem placeholderField_eq (location : String) (op : Operation) (name : String) :
    RequestShape.placeholderField c location op name =
      RequestShape.placeholderField c' location op name := by
  simp only [RequestShape.placeholderField, h.field_eq]

theorem bodyOf_eq (location : String) (op : Operation) (keepBody : Bool) (taken : List String) :
    RequestShape.bodyOf c location op keepBody taken =
      RequestShape.bodyOf c' location op keepBody taken := by
  simp only [RequestShape.bodyOf, h.propertyField_eq, h.typeOrAny_eq]

theorem requestShape_eq (op : PlannedOperation) : RequestShape.of c op = RequestShape.of c' op := by
  have hfield (location : String) : Parameter.field c location = Parameter.field c' location :=
    funext fun p => h.field_eq location p
  have hplaceholder : RequestShape.placeholderField c op.location op.operation =
      RequestShape.placeholderField c' op.location op.operation :=
    funext fun name => h.placeholderField_eq op.location op.operation name
  simp only [RequestShape.of, hfield, hplaceholder, h.bodyOf_eq]

theorem dataShape_eq (op : PlannedOperation) : DataShape.of c op = DataShape.of c' op := by
  simp only [DataShape.of, h.typeAt_eq, h.propertyMembers_eq]

theorem typeDoc_eq (op : PlannedOperation) (what : String) :
    op.typeDoc c what = op.typeDoc c' what := by
  rw [PlannedOperation.typeDoc, PlannedOperation.typeDoc, h.comments]

theorem operationDeclarations_eq (op : PlannedOperation) (shape : RequestShape)
    (declared : List String) :
    operationDeclarations c op shape declared = operationDeclarations c' op shape declared := by
  simp only [operationDeclarations, h.dataShape_eq, requestDeclarations, responseDeclaration,
    h.typeDoc_eq]

theorem operationsDeclarations_eq (shapes : List (PlannedOperation × RequestShape))
    (declared : List String) :
    operationsDeclarations c shapes declared = operationsDeclarations c' shapes declared := by
  induction shapes generalizing declared with
  | nil => rfl
  | cons p rest ih => simp only [operationsDeclarations, h.operationDeclarations_eq, ih]

theorem shapesOf_eq (ops : List PlannedOperation) : shapesOf c ops = shapesOf c' ops := by
  simp only [shapesOf, h.requestShape_eq]

theorem shapedDeclarations_eq (ops : List PlannedOperation) (declared : List String) :
    shapedDeclarations c ops declared = shapedDeclarations c' ops declared := by
  induction ops generalizing declared with
  | nil => rfl
  | cons op rest ih =>
    simp only [shapedDeclarations, h.requestShape_eq, h.operationDeclarations_eq, ih]

theorem allDeclarations_eq (plans : List ModulePlan) :
    allDeclarations c plans = allDeclarations c' plans := by
  simp only [allDeclarations, h.schemas, h.schemaDeclarations_eq, h.shapedDeclarations_eq]

theorem ownDeclarations_eq (shapes : List (PlannedOperation × RequestShape)) :
    ownDeclarations c shapes = ownDeclarations c' shapes := by
  simp only [ownDeclarations, Document.schemasUsedBy_eq h.schemas, h.schemaDeclarations_eq,
    h.operationsDeclarations_eq]

end TypeContext.Agrees

/-! ## Source files -/

namespace Client

variable (c : Config) {d d' : Document} (h : d.schemas = d'.schemas)
include h

theorem agrees_typeContext : (c.typeContext d).Agrees (c.typeContext d') :=
  ⟨h, rfl, rfl⟩

theorem typesUnit_eq (plans : List ModulePlan) : typesUnit c d plans = typesUnit c d' plans := by
  simp only [typesUnit, (agrees_typeContext c h).allDeclarations_eq]

theorem moduleUnit_eq (m : ModulePlan) : moduleUnit c d m = moduleUnit c d' m := by
  have hagrees := agrees_typeContext c h
  simp only [moduleUnit, moduleSource, hagrees.shapesOf_eq, hagrees.ownDeclarations_eq]

/-- The source files of planned modules depend on the named schemas of the document only. -/
theorem units_eq (plans : List ModulePlan) : units c d plans = units c d' plans := by
  have hmodule : moduleUnit c d = moduleUnit c d' := funext fun m => moduleUnit_eq c h m
  simp only [units, typesUnit_eq c h, hmodule]

end Client

end OpenApiClient
