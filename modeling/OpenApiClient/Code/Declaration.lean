import OpenApiClient.Code.Fragment
import OpenApiClient.Code.Identifier

/-!
# Declarations

The statements that generated files are made of: imports, types, functions, object literals and
exports. Each of them is data, and its `fragments` say how it is written.
-/

namespace OpenApiClient.Code

def exportWord (exported : Bool) : String :=
  if exported then "export " else ""

/-- The comment in front of something that has one. -/
def docFragments (doc : Option String) : List Fragment :=
  doc.toList.map .doc

structure Import where
  source : String
  names : List String
  typeOnly : Bool
  deriving DecidableEq, Repr

def Import.statement (i : Import) : String :=
  if i.names.isEmpty then "import '" ++ i.source ++ "';"
  else
    "import " ++ (if i.typeOnly then "type " else "") ++ "\x7b " ++
      Text.joinStrings ", " i.names ++ " \x7d from '" ++ i.source ++ "';"

def Import.fragments (i : Import) : List Fragment :=
  [.line i.statement]

/-- A member of an interface, with its key and its type as they are written. -/
structure Member where
  key : String
  type : String
  doc : Option String := none
  isOptional : Bool := false
  deriving DecidableEq, Repr

def Member.fragments (m : Member) : List Fragment :=
  docFragments m.doc ++
    [.line (m.key ++ (if m.isOptional then "?" else "") ++ ": " ++ m.type ++ ";")]

/-- What a declared name stands for. -/
inductive Definition where
  | interface (members : List Member)
  | alias (type : String)
  deriving DecidableEq, Repr

structure Declaration where
  name : String
  doc : Option String
  definition : Definition
  isExported : Bool := true
  deriving DecidableEq, Repr

def Declaration.hidden (d : Declaration) : Declaration :=
  { d with isExported := false }

def Declaration.fragments (d : Declaration) : List Fragment :=
  let head := exportWord d.isExported
  docFragments d.doc ++
    match d.definition with
    | .alias type => [.line (head ++ "type " ++ d.name ++ " = " ++ type ++ ";")]
    | .interface [] => [.line (head ++ "interface " ++ d.name ++ " \x7b\x7d")]
    | .interface members =>
      [.block (head ++ "interface " ++ d.name ++ " \x7b") (members.flatMap Member.fragments)
        (some "\x7d")]

/-- The value of a property of an object literal. -/
inductive Value where
  /-- An expression as it is written. -/
  | expression (text : String)
  /-- An object literal, with its properties in order. -/
  | object (properties : List (String × Value))
  deriving Repr, Inhabited

def Value.ofText (s : String) : Value :=
  .expression (singleQuoted s)

abbrev Properties := List (String × Value)

mutual

def Value.property (key : String) : Value → Fragment
  | .expression text => .line (key ++ ": " ++ text ++ ",")
  | .object [] => .line (key ++ ": \x7b\x7d,")
  | .object (p :: ps) =>
    .block (key ++ ": \x7b") (propertyFragments (p :: ps)) (some "\x7d,")
termination_by structural v => v

def propertyFragments : List (String × Value) → List Fragment
  | [] => []
  | (key, v) :: rest => v.property key :: propertyFragments rest
termination_by structural ps => ps

end

def Properties.wrapped (opening closing : String) (properties : Properties) : Fragment :=
  match properties with
  | [] => .line (opening ++ "\x7b\x7d" ++ closing)
  | properties =>
    .block (opening ++ "\x7b") (propertyFragments properties) (some ("\x7d" ++ closing))

/-- An argument of a function, with its type if it is written. -/
structure Argument where
  name : String
  type : Option String
  deriving DecidableEq, Repr

def Argument.text (a : Argument) : String :=
  match a.type with
  | some type => a.name ++ ": " ++ type
  | none => a.name

/-- A function, written as an arrow or with the word for functions. -/
structure Function where
  name : String
  doc : Option String := none
  isExported : Bool := true
  isAsync : Bool := false
  isArrow : Bool := false
  arguments : List Argument := []
  result : Option String := none
  body : List Fragment := []
  deriving Repr

/-- The arguments and the result of a function as they are written. -/
def Function.signature (f : Function) : String :=
  "(" ++ Text.joinStrings ", " (f.arguments.map Argument.text) ++ ")" ++
    (match f.result with
      | some type => ": " ++ type
      | none => "")

def Function.header (f : Function) : String :=
  let async := if f.isAsync then "async " else ""
  if f.isArrow then
    exportWord f.isExported ++ "const " ++ f.name ++ " = " ++ async ++ f.signature ++ " => \x7b"
  else exportWord f.isExported ++ async ++ "function " ++ f.name ++ f.signature ++ " \x7b"

def Function.fragments (f : Function) : List Fragment :=
  docFragments f.doc ++ [.block f.header f.body (some (if f.isArrow then "\x7d;" else "\x7d"))]

inductive Export where
  /-- All that a module exports by name. -/
  | everything (source : String)
  /-- The default export of a module, under a name. -/
  | defaultAs (source name : String)
  /-- An object of names as the default export. -/
  | defaultObject (names : List String)
  deriving DecidableEq, Repr

def Export.fragments : Export → List Fragment
  | everything source => [.line ("export * from \"" ++ source ++ "\";")]
  | defaultAs source name =>
    [.line ("export \x7b default as " ++ name ++ " \x7d from \"" ++ source ++ "\";")]
  | defaultObject [] => [.line "export default \x7b\x7d;"]
  | defaultObject names =>
    [.block "export default \x7b" (names.map fun name => .line (name ++ ",")) (some "\x7d;")]

end OpenApiClient.Code
