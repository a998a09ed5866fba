import OpenApiClient.Toml.Scalar

/-!
# Statements of a TOML text

A TOML text is a list of statements: assignments to keys and headers of tables. Values and keys
remember which part of the text they came from, as the numbers of bytes that were unread before and
after them.
-/

namespace OpenApiClient.Toml

/-- A part of a text: how many bytes were unread before and after it. -/
structure Spot where
  before : Nat
  after : Nat
  deriving DecidableEq, Repr

def Spot.span (total : Nat) (s : Spot) : Text.Span :=
  ⟨total - s.before, s.before - s.after⟩

structure Key where
  name : String
  spot : Spot
  deriving DecidableEq, Repr

/-- How a table came to be, which decides what may be added to it later. -/
inductive Origin where
  /-- On the way to the table of a header. -/
  | implied
  /-- By a dotted key. -/
  | dotted
  /-- By a header. -/
  | headed
  /-- Between braces; nothing may be added. -/
  | inline
  deriving DecidableEq, Repr

inductive Value where
  | scalar (s : Scalar)
  /-- A list, with the place of each item; `growing` if it is made by headers. -/
  | list (growing : Bool) (items : List (Spot × Value))
  | table (origin : Origin) (entries : List (Key × Spot × Value))
  deriving Repr, Inhabited

abbrev Node := Spot × Value

abbrev Entries := List (Key × Node)

structure Assignment where
  path : List Key
  value : Node

/-- The value of a key, if it is there. -/
def lookup? (name : String) : Entries → Option Node
  | [] => none
  | (k, v) :: rest => if k.name = name then some v else lookup? name rest

def replace (name : String) (v : Value) : Entries → Entries
  | [] => []
  | (k, spot, old) :: rest =>
    if k.name = name then (k, spot, v) :: rest else (k, spot, old) :: replace name v rest

/-- The entries after an assignment; none if it does not agree with what is there. -/
def assign (v : Node) : List Key → Entries → Option Entries
  | [], _ => none
  | [k], entries => if (lookup? k.name entries).isSome then none else some (entries ++ [(k, v)])
  | k :: path, entries =>
    match lookup? k.name entries with
    | none => (assign v path []).map fun inner => entries ++ [(k, k.spot, .table .dotted inner)]
    | some (_, .table .dotted inner) =>
      (assign v path inner).map fun inner => replace k.name (.table .dotted inner) entries
    | some (_, .table .implied inner) =>
      (assign v path inner).map fun inner => replace k.name (.table .implied inner) entries
    | some _ => none

def assignAll (assignments : List Assignment) (entries : Entries) : Option Entries :=
  assignments.foldlM (fun entries a => assign a.value a.path entries) entries

/-! ## Keys -/

/-- Reads something and the place where it stands. -/
def spotted {α : Type} (read : Reader α) : Reader (Spot × α) := do
  let before := Text.byteLength (← get)
  let a ← read
  return (⟨before, Text.byteLength (← get)⟩, a)

/-- The blanks in front of the text go. -/
def skipBlanks : Reader Unit :=
  modify (·.dropWhile isBlank)

def isKeyChar (c : Char) : Bool :=
  c.isAlphanum || c == '_' || c == '-'

def keyPart : Reader Key := do
  let (spot, name) ← spotted (do
    match (← get).head? with
    | some '"' =>
      demand ['"']
      return String.ofList (← lineText '"' true ((← get).length + 1))
    | some '\'' =>
      demand ['\'']
      return String.ofList (← lineText '\'' false ((← get).length + 1))
    | _ =>
      let name ← takeClass isKeyChar
      ensure (!name.isEmpty)
      return String.ofList name)
  return ⟨name, spot⟩

/-- Reads a key with its dotted parts and the blanks around them. -/
def dottedKey : Nat → Reader (List Key)
  | 0 => StateT.lift none
  | fuel + 1 => do
    skipBlanks
    let k ← keyPart
    skipBlanks
    if ← accept ['.'] then return k :: (← dottedKey fuel) else return [k]

/-! ## Values -/

/-- A comment in front of the text goes. -/
def skipComment : Reader Unit := fun cs =>
  match cs with
  | '#' :: rest => some ((), rest.dropWhile isPlain)
  | cs => some ((), cs)

/-- Blanks, comments and line breaks in front of the text go. -/
def skipLines : Nat → Reader Unit
  | 0 => pure ()
  | fuel + 1 => do
    skipBlanks
    skipComment
    match lineBreak? (← get) with
    | some rest =>
      set rest
      skipLines fuel
    | none => pure ()

mutual

def value : Nat → Reader Node
  | 0 => StateT.lift none
  | fuel + 1 => do
    match (← get).head? with
    | some '"' => spotted (return .scalar (.text (← quoted '"')))
    | some '\'' => spotted (return .scalar (.text (← quoted '\'')))
    | some '[' => spotted do
      demand ['[']
      return .list false (← items fuel)
    | some '\x7b' => spotted do
      demand ['\x7b']
      let assignments ← pairs fuel
      return .table .inline (← StateT.lift (assignAll assignments []))
    | _ => spotted (return .scalar (← wordScalar))

def items : Nat → Reader (List Node)
  | 0 => StateT.lift none
  | fuel + 1 => do
    skipLines (← get).length
    if ← accept [']'] then return []
    else
      let v ← value fuel
      skipLines (← get).length
      if ← accept [','] then return v :: (← items fuel)
      else
        demand [']']
        return [v]

/-- Reads the assignments of a table between braces and the brace after them. -/
def pairs : Nat → Reader (List Assignment)
  | 0 => StateT.lift none
  | fuel + 1 => do
    skipLines (← get).length
    if ← accept ['\x7d'] then return []
    else
      let a ← assignment fuel
      skipLines (← get).length
      if ← accept [','] then return a :: (← pairs fuel)
      else
        demand ['\x7d']
        return [a]

def assignment : Nat → Reader Assignment
  | 0 => StateT.lift none
  | fuel + 1 => do
    let path ← dottedKey ((← get).length + 1)
    demand ['=']
    skipBlanks
    return ⟨path, ← value fuel⟩

end

end OpenApiClient.Toml
