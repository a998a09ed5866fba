import OpenApiClient.Code.Fragment
import OpenApiClient.Code.Identifier

/-!
# Type expressions

A type expression is a tree, and `TypeExpr.text` is the only way in which it is written. A list of
several lines is indented by its depth. The item type of an array is put in parentheses when its
text has a bar between blanks and does not begin with a brace; that is also the case when the bar
stands inside a quoted text or inside another type, where the parentheses do no harm.
-/

namespace OpenApiClient.Code

/-- What is said about a member of an object type besides its type. -/
structure MemberHead where
  name : String
  isOptional : Bool
  doc : Option String
  deriving DecidableEq, Repr

/-- A type expression. -/
inductive TypeExpr where
  /-- A named type. -/
  | named (name : String)
  /-- One of several literals, given by their texts. -/
  | literals (texts : List String)
  | array (item : TypeExpr)
  /-- An object with any keys. -/
  | record (value : TypeExpr)
  | object (members : List (MemberHead × TypeExpr))
  deriving Repr, Inhabited

namespace TypeExpr

def any : TypeExpr := named "any"

def bar : List Char := [' ', '|', ' ']

/-- Whether the text of an item type is put in parentheses. -/
def needsParens (text : List Char) : Bool :=
  Text.isInfixOf bar text && text.head? != some '\x7b'

/-- The blanks in front of a line. -/
def margin (depth : Nat) : List Char :=
  padding standardUnit depth

/-- A comment on one line: blanks and breaks in the text are single blanks. -/
def memberDoc (depth : Nat) : Option String → List Char
  | none => []
  | some doc =>
    margin depth ++ docLine (Text.join [' '] (Text.blankSeparated doc.toList)) ++ ['\n']

def memberHead (depth : Nat) (m : MemberHead) : List Char :=
  memberDoc depth m.doc ++ margin depth ++ (propertyKey m.name).toList ++
    (if m.isOptional then ['?', ':', ' '] else [':', ' '])

mutual

/-- The text of a type whose first line stands at a depth. -/
def write (depth : Nat) : TypeExpr → List Char
  | named name => name.toList
  | literals texts => Text.join bar (texts.map String.toList)
  | array item =>
    let text := write depth item
    if needsParens text then '(' :: text ++ [')', '[', ']'] else text ++ ['[', ']']
  | record value => "Record<string, ".toList ++ write depth value ++ ['>']
  | object members =>
    ['\x7b', '\n'] ++ writeMembers (depth + 1) members ++ margin depth ++ ['\x7d']
termination_by structural t => t

def writeMembers (depth : Nat) : List (MemberHead × TypeExpr) → List Char
  | [] => []
  | (head, type) :: rest =>
    memberHead depth head ++ write depth type ++ [';', '\n'] ++ writeMembers depth rest
termination_by structural ms => ms

end

def text (t : TypeExpr) : String :=
  String.ofList (write 0 t)

end TypeExpr

end OpenApiClient.Code
