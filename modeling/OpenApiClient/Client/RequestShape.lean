import OpenApiClient.Client.PathTemplate
import OpenApiClient.Client.Plan
import OpenApiClient.Client.SchemaType
import OpenApiClient.Code.Declaration

/-!
# Shapes of requests

A client function takes one object with everything that its operation accepts. The shape of this
object says which fields it has: those of the path, of the query and of the body side by side, the
headers in an object of their own, and a body that is no object with declared properties as one
field. As all fields share one object, a name that is taken already is left out and reported; the
fields of the path come first, then the two fixed ones, then query and body.

Both the type of the object and the call that is made from it are derived from the shape.
-/

namespace OpenApiClient

open Code (TypeExpr)

def argumentName : String := "params"

structure RequestField where
  name : String
  type : TypeExpr
  required : Bool
  doc : Option String
  deriving Repr

inductive BodyShape where
  | absent
  /-- Properties that become fields of the request. -/
  | fields (fields : List RequestField)
  /-- A body that is passed on as it is. -/
  | whole (type : TypeExpr) (required : Bool)
  deriving Repr

/-- Everything that an operation accepts. -/
structure RequestShape where
  path : List RequestField
  query : List RequestField
  headers : List RequestField
  body : BodyShape
  deriving Repr

def typeOrAny (c : TypeContext) (location : String) : Option Schema → Noted TypeExpr
  | some s => s.typeAt c location
  | none => pure .any

def Parameter.field (c : TypeContext) (location : String) (p : Parameter) : Noted RequestField := do
  let type ← typeOrAny c location p.schema
  return ⟨p.name, type, p.required, c.descriptionDoc p.description⟩

/-- The field of a property of a body, given the names of the required ones. -/
def propertyField (c : TypeContext) (location : String) (required : List String)
    (property : String × Schema) : Noted RequestField := do
  let (name, s) := property
  let type ← s.typeAt c location
  return ⟨name, type, required.contains name, c.memberDoc s⟩

/-- The fields of items whose names are not taken yet, and the names that are taken after them. An
item without a field is reported. -/
def claimFields {α : Type} (nameOf : α → String) (clash : String → Diagnostic)
    (field : α → Noted RequestField) :
    List String → List α → Noted (List RequestField × List String)
  | taken, [] => return ([], taken)
  | taken, a :: rest => do
    if taken.contains (nameOf a) then
      Noted.note (clash (nameOf a))
      claimFields nameOf clash field taken rest
    else
      let f ← field a
      let (fs, taken) ← claimFields nameOf clash field (nameOf a :: taken) rest
      return (f :: fs, taken)

namespace RequestShape

/-- The report that a parameter has no place in the path. -/
def unmatchedNote (location name : String) : Diagnostic :=
  .typeWarning location
    ("path parameter `" ++ name ++ "` does not appear in the path template")

/-- The report that a fixed field has the name of a placeholder. -/
def containerNote (location name : String) : Diagnostic :=
  .typeWarning location
    ("`" ++ name ++ "` clashes with a path parameter of the same name, skipped")

/-- The report that a field has a name that is taken. -/
def clashNote (location what name : String) : Diagnostic :=
  .typeWarning location (what ++ " `" ++ name ++ "` clashes with another request field, skipped")

def cookieNote (location name : String) : Diagnostic :=
  .typeInfo location ("cookie parameter `" ++ name ++ "` is not part of the request type")

/-! ## Parts -/

/-- The field of a placeholder: declared by a parameter, or any text. -/
def placeholderField (c : TypeContext) (location : String) (op : Operation) (name : String) :
    Noted RequestField :=
  match (op.parametersIn .path).find? fun p => p.name == name with
  | some p => do
    let f ← p.field c location
    return { f with required := true }
  | none => pure ⟨name, .named "string", true, none⟩

def unmatched (op : Operation) (placeholders : List String) : List Parameter :=
  (op.parametersIn .path).filter fun p => !placeholders.contains p.name

def hasWholeBody (op : Operation) : Bool :=
  op.requestBody.any fun b => (b.schema?.bind Schema.properties?).isNone

/-- Whether a fixed field is kept: it must be wanted and its name must be free. -/
def keepContainer (location name : String) (wanted : Bool) (placeholders : List String) :
    Noted Bool := do
  let taken := placeholders.contains name
  Noted.noteIf (wanted && taken) (containerNote location name)
  return wanted && !taken

/-- The body of a request, given whether a whole one is kept and the names that are taken. -/
def bodyOf (c : TypeContext) (location : String) (op : Operation) (keepBody : Bool)
    (taken : List String) : Noted BodyShape :=
  match op.requestBody with
  | none => pure .absent
  | some body =>
    match body.schema?.bind Schema.properties? with
    | some (properties, required) => do
      let (fields, _) ←
        claimFields Prod.fst (clashNote location "body field")
          (propertyField c location required) taken properties
      return .fields fields
    | none =>
      if keepBody then do
        return .whole (← typeOrAny c location body.schema?) body.required
      else pure .absent

def of (c : TypeContext) (op : PlannedOperation) : Noted RequestShape := do
  let location := op.location
  let operation := op.operation
  let placeholders := PathTemplate.placeholders op.endpoint.path
  let path ← Noted.each (placeholderField c location operation) placeholders
  let _ ← Noted.each (fun p => Noted.note (unmatchedNote location p.name))
    (unmatched operation placeholders)
  let headerParameters := operation.parametersIn .header
  let keepHeaders ← keepContainer location "headers" (!headerParameters.isEmpty) placeholders
  let keepBody ← keepContainer location "body" (hasWholeBody operation) placeholders
  let taken := placeholders ++ (if keepHeaders then ["headers"] else []) ++
    (if keepBody then ["body"] else [])
  let (query, taken) ←
    claimFields Parameter.name (clashNote location "query parameter")
      (Parameter.field c location) taken (operation.parametersIn .query)
  let headers ←
    Noted.each (Parameter.field c location) (if keepHeaders then headerParameters else [])
  let _ ← Noted.each (fun p => Noted.note (cookieNote location p.name))
    (operation.parametersIn .cookie)
  let body ← bodyOf c location operation keepBody taken
  return ⟨path, query, headers, body⟩

/-! ## The type of a request -/

def isEmpty (s : RequestShape) : Bool :=
  s.path.isEmpty && s.query.isEmpty && s.headers.isEmpty &&
    match s.body with
    | .absent => true
    | _ => false

end RequestShape

def RequestField.member (f : RequestField) : Code.Member :=
  ⟨Code.propertyKey f.name, f.type.text, f.doc, !f.required⟩

def RequestField.typeMember (f : RequestField) : Code.MemberHead × TypeExpr :=
  (⟨f.name, !f.required, f.doc⟩, f.type)

namespace RequestShape

def headerMembers (s : RequestShape) : List Code.Member :=
  if s.headers.isEmpty then []
  else
    [⟨"headers", (TypeExpr.object (s.headers.map RequestField.typeMember)).text, none,
      !s.headers.any RequestField.required⟩]

def bodyMembers (s : RequestShape) : List Code.Member :=
  match s.body with
  | .absent => []
  | .fields fields => fields.map RequestField.member
  | .whole type required => [⟨"body", type.text, none, !required⟩]

def members (s : RequestShape) : List Code.Member :=
  (s.path ++ s.query).map RequestField.member ++ s.headerMembers ++ s.bodyMembers

/-! ## The call -/

def access (name : String) : String :=
  Code.propertyAccess argumentName name

def passOn (fields : List RequestField) : Code.Value :=
  .object (fields.map fun f => (Code.propertyKey f.name, .expression (access f.name)))

def address (s : RequestShape) (path : String) : String :=
  if s.path.isEmpty then Code.singleQuoted path else PathTemplate.address argumentName path

def callBody (s : RequestShape) : Code.Properties :=
  match s.body with
  | .absent => []
  | .fields fields => [("data", passOn fields)]
  | .whole _ _ => [("data", .expression (access "body"))]

def call (s : RequestShape) (e : Endpoint) : Code.Properties :=
  [("url", .expression (s.address e.path)), ("method", .ofText e.method.wireName)] ++
    (if s.query.isEmpty then [] else [("params", passOn s.query)]) ++
    (if s.headers.isEmpty then [] else [("headers", .expression (access "headers"))]) ++
    s.callBody

end RequestShape

end OpenApiClient
