import OpenApiClient.Code.Identifier

/-!
# Path templates

A path is cut into fixed text and placeholders, the names between braces. Each placeholder begins at
an opening brace and ends at the next closing one; an opening brace that none follows is fixed text.
The placeholders of a request and the address that is built from it both come from this cut.
-/

namespace OpenApiClient

inductive PathPiece where
  | fixed (text : List Char)
  | placeholder (name : List Char)
  deriving DecidableEq, Repr

namespace PathPiece

def cut (path : List Char) : List PathPiece :=
  match h : Text.cutAt? '\x7b' path with
  | none => [fixed path]
  | some (before, after) =>
    match h' : Text.cutAt? '\x7d' after with
    | none => [fixed path]
    | some (name, rest) =>
      have : rest.length < path.length := by
        have hpath := congrArg List.length (Text.cutAt?_eq_some_iff.mp h).1
        have hafter := congrArg List.length (Text.cutAt?_eq_some_iff.mp h').1
        simp only [List.length_append, List.length_cons] at hpath hafter
        omega
      fixed before :: placeholder name :: cut rest
termination_by path.length

/-- The name of a placeholder, unless it is empty. -/
def name? : PathPiece → Option String
  | fixed _ => none
  | placeholder [] => none
  | placeholder name => some (String.ofList name)

/-- A text inside an address with placeholders. -/
def escapeFixed (text : List Char) : List Char :=
  Text.replace '$' ['\x7b'] ['\\', '$', '\x7b']
    (Text.replace '`' [] ['\\', '`'] (Text.replace '\\' [] ['\\', '\\'] text))

/-- How a piece is written in an address, given the object that has the values. -/
def write (object : String) : PathPiece → List Char
  | fixed text => escapeFixed text
  | placeholder name =>
    ['$', '\x7b'] ++ (Code.propertyAccess object (String.ofList name)).toList ++ ['\x7d']

end PathPiece

namespace PathTemplate

/-- The names of the placeholders of a path, each once, at its first place. -/
def placeholders (path : String) : List String :=
  ((PathPiece.cut path.toList).filterMap PathPiece.name?).eraseDups

/-- The address as an expression with values for the placeholders. -/
def address (object path : String) : String :=
  String.ofList ('`' :: (PathPiece.cut path.toList).flatMap (PathPiece.write object) ++ ['`'])

end PathTemplate

end OpenApiClient
