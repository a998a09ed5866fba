import OpenApiClient.Client.Diagnostic
import OpenApiClient.Code.TypeExpr
import OpenApiClient.Document.Basic
import OpenApiClient.Json.Writer
import OpenApiClient.NameStyle

/-!
# Types of schemas

Every schema has a type. References stand for the names of the schemas that they lead to and are
never followed, so that circular schemas have types too. What has no type of its own, such as a
reference that leads nowhere or a combination, is `any`, and a diagnostic says so. The type of a
schema does not depend on the place where it is used; only its diagnostics do.
-/

namespace OpenApiClient

open Code (TypeExpr)

structure TypeContext where
  document : Document
  naming : NameStyle
  /-- Whether members have comments. -/
  comments : Bool

namespace TypeContext

def typeName (c : TypeContext) (name : String) : String :=
  c.naming.format name

/-- The name of the type that a pointer stands for, if there is such a schema. -/
def referenceName? (c : TypeContext) (pointer : String) : Option String :=
  let name := Pointer.name pointer
  (c.document.schema? name).map fun _ => c.typeName name

def memberDoc (c : TypeContext) (s : Schema) : Option String :=
  if c.comments then s.label else none

/-- A description as a comment, unless it is blank. -/
def descriptionDoc (c : TypeContext) (description : Option String) : Option String :=
  description.filter fun d => c.comments && !Text.isBlank d

end TypeContext

def Primitive.typeName : Primitive → String
  | string => "string"
  | number | integer => "number"
  | boolean => "boolean"

/-- The text of a value as a literal, if it is a scalar. -/
def literal? : Json → Option String
  | .arr _ | .obj _ => none
  | v => some v.compact

/-- The texts of several literals without repetitions, if all values are scalars. -/
def literals? (values : List Json) : Option (List String) :=
  (values.mapM literal?).map List.eraseDups

def enumerationType (values : List Json) : TypeExpr :=
  match literals? values with
  | none | some [] => .any
  | some texts => .literals texts

namespace Schema

def memberHead (c : TypeContext) (required : List String) (name : String) (s : Schema) :
    Code.MemberHead :=
  ⟨name, !required.contains name, c.memberDoc s⟩

mutual

def toType (c : TypeContext) : Schema → TypeExpr
  | reference _ pointer =>
    match c.referenceName? pointer with
    | some name => .named name
    | none => .any
  | primitive _ p => .named p.typeName
  | enumeration _ _ values => enumerationType values
  | array _ none => .array .any
  | array _ (some items) => .array (toType c items)
  | object _ [] _ none => .record .any
  | object _ [] _ (some extra) => .record (toType c extra)
  | object _ (p :: ps) required none => .object (memberTypes c required (p :: ps))
  | object _ (p :: ps) required (some _) => .object (memberTypes c required (p :: ps))
  | combination _ _ _ => .any
  | anything _ type => if type = some "null" then .named "null" else .any
termination_by structural s => s

def memberTypes (c : TypeContext) (required : List String) :
    List (String × Schema) → List (Code.MemberHead × TypeExpr)
  | [] => []
  | (name, s) :: rest =>
    (memberHead c required name s, toType c s) :: memberTypes c required rest
termination_by structural ps => ps

end

/-- The report that a reference leads nowhere. -/
def danglingNote (location pointer : String) : Diagnostic :=
  .typeWarning location ("unresolved reference `" ++ pointer ++ "`, using `any`")

def combinationNote (location : String) (kind : Combinator) : Diagnostic :=
  .typeWarning location ("`" ++ kind.name ++ "` is not merged, using `any`")

mutual

def typeNotes (c : TypeContext) (location : String) : Schema → List Diagnostic
  | reference _ pointer =>
    if (c.referenceName? pointer).isSome then [] else [danglingNote location pointer]
  | array _ (some items) => typeNotes c location items
  | object _ [] _ (some extra) => typeNotes c location extra
  | object _ (p :: ps) _ _ => memberNotes c location (p :: ps)
  | combination _ kind _ => [combinationNote location kind]
  | _ => []
termination_by structural s => s

def memberNotes (c : TypeContext) (location : String) :
    List (String × Schema) → List Diagnostic
  | [] => []
  | (_, s) :: rest => typeNotes c location s ++ memberNotes c location rest
termination_by structural ps => ps

end

def typeAt (c : TypeContext) (location : String) (s : Schema) : Noted TypeExpr :=
  ⟨s.toType c, s.typeNotes c location⟩

end Schema

end OpenApiClient
