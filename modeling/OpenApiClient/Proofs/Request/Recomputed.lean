import OpenApiClient.Proofs.InPass
import OpenApiClient.Proofs.Request.Reported

/-!
# Shapes are found in any pass

Types, the shapes of requests and those of data are found more than once: by the file of types and by
the modules. Here they are found in a pass that is handed on from node to node and from parameter to
parameter, each diagnostic recorded as soon as it comes up (`InPass`). One equation for each of these
computations says that it carries out the noted one, so it may be repeated at will, and what it
records is what is to be reported about the schema, the request or the response
(`shapes_recomputed`).
-/

namespace OpenApiClient

open Code (TypeExpr Member MemberHead)

namespace InPass

section Types

variable (c : TypeContext) (location : String)

mutual

/-- Finds the type of a schema that is used at a location. -/
def typeOf : Schema → StateM Pass TypeExpr
  | .reference _ pointer =>
    match c.referenceName? pointer with
    | some name => return .named name
    | none => do
      Pass.report (Schema.danglingNote location pointer)
      return .any
  | .primitive _ p => return .named p.typeName
  | .enumeration _ _ values => return enumerationType values
  | .array _ none => return .array .any
  | .array _ (some items) => do
    let type ← typeOf items
    return .array type
  | .object _ [] _ none => return .record .any
  | .object _ [] _ (some extra) => do
    let type ← typeOf extra
    return .record type
  | .object _ (p :: ps) required _ => do
    let members ← memberTypesOf required (p :: ps)
    return .object members
  | .combination _ kind _ => do
    Pass.report (Schema.combinationNote location kind)
    return .any
  | .anything _ type => return if type = some "null" then .named "null" else .any
termination_by structural s => s

def memberTypesOf (required : List String) :
    List (String × Schema) → StateM Pass (List (MemberHead × TypeExpr))
  | [] => return []
  | (name, s) :: rest => do
    let type ← typeOf s
    let members ← memberTypesOf required rest
    return (Schema.memberHead c required name s, type) :: members
termination_by structural ps => ps

end

def typeOrAny : Option Schema → StateM Pass TypeExpr
  | some s => typeOf c location s
  | none => return .any

def field (p : Parameter) : StateM Pass RequestField := do
  let type ← typeOrAny c location p.schema
  return ⟨p.name, type, p.required, c.descriptionDoc p.description⟩

def propertyField (required : List String) (property : String × Schema) :
    StateM Pass RequestField := do
  let type ← typeOf c location property.2
  return ⟨property.1, type, required.contains property.1, c.memberDoc property.2⟩

end Types

/-! ## Shapes in a pass -/

/-- Finds the fields of items whose names are not taken yet, and the names that are taken after
them. -/
def claimFields {α : Type} (nameOf : α → String) (clash : String → Diagnostic)
    (field : α → StateM Pass RequestField) :
    List String → List α → StateM Pass (List RequestField × List String)
  | taken, [] => return ([], taken)
  | taken, a :: rest =>
    if taken.contains (nameOf a) then do
      Pass.report (clash (nameOf a))
      claimFields nameOf clash field taken rest
    else do
      let f ← field a
      let (fs, taken) ← claimFields nameOf clash field (nameOf a :: taken) rest
      return (f :: fs, taken)

section Shapes

variable (c : TypeContext) (location : String)

def placeholderField (op : Operation) (name : String) : StateM Pass RequestField :=
  match (op.parametersIn .path).find? fun p => p.name == name with
  | some p => do
    let f ← field c location p
    return { f with required := true }
  | none => return ⟨name, .named "string", true, none⟩

/-- Finds out whether a fixed field is kept. -/
def keepContainer (name : String) (wanted : Bool) (placeholders : List String) :
    StateM Pass Bool := do
  let taken := placeholders.contains name
  Pass.reportIf (wanted && taken) (RequestShape.containerNote location name)
  return wanted && !taken

def bodyOf (op : Operation) (keepBody : Bool) (taken : List String) : StateM Pass BodyShape :=
  match op.requestBody with
  | none => return .absent
  | some body =>
    match body.schema?.bind Schema.properties? with
    | some (properties, required) => do
      let (fields, _) ← claimFields Prod.fst (RequestShape.clashNote location "body field")
        (propertyField c location required) taken properties
      return .fields fields
    | none =>
      if keepBody then do
        let type ← typeOrAny c location body.schema?
        return .whole type body.required
      else return .absent

def requestShape (op : PlannedOperation) : StateM Pass RequestShape := do
  let location := op.location
  let operation := op.operation
  let placeholders := PathTemplate.placeholders op.endpoint.path
  let path ← placeholders.mapM (placeholderField c location operation)
  let _ ← (RequestShape.unmatched operation placeholders).mapM fun p =>
    Pass.report (RequestShape.unmatchedNote location p.name)
  let headerParameters := operation.parametersIn .header
  let keepHeaders ← keepContainer location "headers" (!headerParameters.isEmpty) placeholders
  let keepBody ← keepContainer location "body" (RequestShape.hasWholeBody operation) placeholders
  let taken := placeholders ++ (if keepHeaders then ["headers"] else []) ++
    (if keepBody then ["body"] else [])
  let (query, taken) ← claimFields Parameter.name
    (RequestShape.clashNote location "query parameter") (field c location) taken
    (operation.parametersIn .query)
  let headers ← (if keepHeaders then headerParameters else []).mapM (field c location)
  let _ ← (operation.parametersIn .cookie).mapM fun p =>
    Pass.report (RequestShape.cookieNote location p.name)
  let body ← bodyOf c location operation keepBody taken
  return ⟨path, query, headers, body⟩

def propertyMembers (required : List String) (properties : List (String × Schema)) :
    StateM Pass (List Member) :=
  properties.mapM fun (name, s) => do
    let type ← typeOf c location s
    return ⟨Code.propertyKey name, type.text, c.memberDoc s, !required.contains name⟩

def dataShape (op : PlannedOperation) : StateM Pass DataShape :=
  match op.operation.successSchema? with
  | none => do
    Pass.report (noDataNote op.location)
    return .inline .any
  | some s =>
    match s with
    | .reference _ _ | .array _ _ => do
      let type ← typeOf c op.location s
      return .alias type
    | _ =>
      match s.properties? with
      | some (properties, required) => do
        let members ← propertyMembers c op.location required properties
        return .interface members
      | none => do
        let type ← typeOf c op.location s
        return .inline type

end Shapes

end InPass

/-! ## They carry out the noted computations -/

section CarriedOut

variable (c : TypeContext) (location : String)

mutual

theorem run_typeAt : ∀ s : Schema, (s.typeAt c location).run = InPass.typeOf c location s
  | .reference _ pointer => by
    funext p
    unfold InPass.typeOf Noted.run Schema.typeAt
    rw [Schema.toType, Schema.typeNotes]
    cases c.referenceName? pointer with
    | none => rfl
    | some name => rfl
  | .primitive _ _ => rfl
  | .enumeration _ _ _ => rfl
  | .array _ none => rfl
  | .array _ (some items) => by
    rw [InPass.typeOf, ← run_typeAt items]
    rfl
  | .object _ [] _ none => rfl
  | .object _ [] _ (some extra) => by
    rw [InPass.typeOf, ← run_typeAt extra]
    rfl
  | .object _ (p :: ps) required none => by
    rw [InPass.typeOf, ← run_memberTypes required (p :: ps)]
    rfl
  | .object _ (p :: ps) required (some _) => by
    rw [InPass.typeOf, ← run_memberTypes required (p :: ps)]
    rfl
  | .combination _ _ _ => rfl
  | .anything _ _ => rfl
termination_by structural s => s

theorem run_memberTypes (required : List String) : ∀ ps : List (String × Schema),
    Noted.run ⟨Schema.memberTypes c required ps, Schema.memberNotes c location ps⟩ =
      InPass.memberTypesOf c location required ps
  | [] => rfl
  | (name, s) :: rest => by
    rw [InPass.memberTypesOf, ← run_typeAt s, ← run_memberTypes required rest]
    funext p
    unfold Noted.run
    rw [Schema.memberTypes, Schema.memberNotes, Pass.recordAll_append]
    rfl
termination_by structural ps => ps

end

theorem run_typeOrAny (o : Option Schema) :
    (typeOrAny c location o).run = InPass.typeOrAny c location o := by
  cases o with
  | none => rfl
  | some s => exact run_typeAt c location s

theorem run_field (p : Parameter) : (p.field c location).run = InPass.field c location p := by
  rw [Parameter.field, Noted.run_bind, run_typeOrAny]
  rfl

theorem run_propertyField (required : List String) (property : String × Schema) :
    (propertyField c location required property).run =
      InPass.propertyField c location required property := by
  rw [propertyField, Noted.run_bind, run_typeAt]
  rfl

theorem run_claimFields {α : Type} {nameOf : α → String} {clash : String → Diagnostic}
    {field : α → Noted RequestField} {fieldIn : α → StateM Pass RequestField}
    (hfield : ∀ a, (field a).run = fieldIn a) (items : List α) (taken : List String) :
    (claimFields nameOf clash field taken items).run =
      InPass.claimFields nameOf clash fieldIn taken items := by
  induction items generalizing taken with
  | nil => rfl
  | cons a rest ih =>
    rw [claimFields, InPass.claimFields]
    split_ifs
    · rw [Noted.run_bind, Noted.run_note]
      congr 1
      funext _
      exact ih taken
    · rw [Noted.run_bind, hfield]
      congr 1
      funext f
      rw [Noted.run_bind, ih]
      rfl

namespace RequestShape

theorem run_placeholderField (op : Operation) (name : String) :
    (placeholderField c location op name).run =
      InPass.placeholderField c location op name := by
  unfold placeholderField InPass.placeholderField
  cases (op.parametersIn .path).find? fun p => p.name == name with
  | none => rfl
  | some p =>
    dsimp only
    rw [Noted.run_bind, run_field]
    rfl

theorem run_keepContainer (name : String) (wanted : Bool) (placeholders : List String) :
    (keepContainer location name wanted placeholders).run =
      InPass.keepContainer location name wanted placeholders := by
  rw [keepContainer, Noted.run_bind, Noted.run_noteIf]
  rfl

theorem run_bodyOf (op : Operation) (keepBody : Bool) (taken : List String) :
    (bodyOf c location op keepBody taken).run =
      InPass.bodyOf c location op keepBody taken := by
  unfold bodyOf InPass.bodyOf
  cases op.requestBody with
  | none => rfl
  | some body =>
    dsimp only
    cases body.schema?.bind Schema.properties? with
    | none =>
      dsimp only
      split_ifs
      · rw [Noted.run_bind, run_typeOrAny]
        rfl
      · rfl
    | some declared =>
      obtain ⟨properties, required⟩ := declared
      dsimp only
      rw [Noted.run_bind, run_claimFields (run_propertyField c location required)]
      rfl

theorem run_reports {α : Type} (report : α → Diagnostic) (items : List α) :
    (Noted.each (fun a => Noted.note (report a)) items).run =
      items.mapM fun a => Pass.report (report a) :=
  Noted.run_each _ items

theorem run_of (op : PlannedOperation) : (of c op).run = InPass.requestShape c op := by
  have hpath (names : List String) :
      (Noted.each (placeholderField c op.location op.operation) names).run =
        names.mapM (InPass.placeholderField c op.location op.operation) := by
    rw [Noted.run_each]
    congr 1
    funext name
    exact run_placeholderField c op.location op.operation name
  have hheaders (ps : List Parameter) :
      (Noted.each (Parameter.field c op.location) ps).run =
        ps.mapM (InPass.field c op.location) := by
    rw [Noted.run_each]
    congr 1
    funext p
    exact run_field c op.location p
  unfold of InPass.requestShape
  simp only [Noted.run_bind, Noted.run_pure, hpath, hheaders, run_reports, run_keepContainer,
    run_claimFields (run_field c op.location), run_bodyOf]

end RequestShape

theorem run_propertyMembers (required : List String) (properties : List (String × Schema)) :
    (propertyMembers c location required properties).run =
      InPass.propertyMembers c location required properties := by
  rw [propertyMembers, Noted.run_each, InPass.propertyMembers]
  congr 1
  funext p
  rw [Noted.run_bind, run_typeAt]
  rfl

theorem DataShape.run_of (op : PlannedOperation) :
    (DataShape.of c op).run = InPass.dataShape c op := by
  unfold DataShape.of InPass.dataShape
  cases op.operation.successSchema? with
  | none => rfl
  | some s =>
    have halias : Noted.run (do return .alias (← s.typeAt c op.location)) =
        (do return DataShape.alias (← InPass.typeOf c op.location s)) := by
      rw [Noted.run_bind, run_typeAt]
      rfl
    have hinline : Noted.run (do return .inline (← s.typeAt c op.location)) =
        (do return DataShape.inline (← InPass.typeOf c op.location s)) := by
      rw [Noted.run_bind, run_typeAt]
      rfl
    cases s with
    | reference n pointer => exact halias
    | array n items => exact halias
    | object n properties required additional =>
      cases properties with
      | nil => exact hinline
      | cons p ps =>
        dsimp only [Schema.properties?]
        rw [Noted.run_bind, run_propertyMembers]
        rfl
    | primitive n p => exact hinline
    | enumeration n base values => exact hinline
    | combination n kind branches => exact hinline
    | anything n type => exact hinline

end CarriedOut

/-- **Shapes are recomputed safely.** The type of a schema, the shape of a request and the data of a
response may be found again in any pass: they are the same in all passes, of the pass only the
diagnostics are extended, by the reports that are new, each once, and finding them again in the pass
after that changes nothing. -/
theorem shapes_recomputed (c : TypeContext) (op : PlannedOperation) (s : Schema)
    (location : String) :
    Recomputes (s.typeAt c location) (InPass.typeOf c location s) (s.Reported c location) ∧
    Recomputes (RequestShape.of c op) (InPass.requestShape c op) (RequestShape.Reported c op) ∧
    Recomputes (DataShape.of c op) (InPass.dataShape c op) (DataShape.Reported c op) := by
  refine ⟨?_, ?_, ?_⟩
  · exact recomputes_of_run (run_typeAt c location s) fun _ => Schema.mem_typeNotes_iff
  · exact recomputes_of_run (RequestShape.run_of c op) fun _ => RequestShape.mem_notes_iff
  · exact recomputes_of_run (DataShape.run_of c op) fun _ => DataShape.mem_notes_of_iff

end OpenApiClient
