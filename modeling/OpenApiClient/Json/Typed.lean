import OpenApiClient.Json.Basic
import OpenApiClient.Text.Visible
import OpenApiClient.Double.Format

/-!
# Typed readings of raw values

Reading a raw value as something typed can fail somewhere inside it. A `ReadError` says what was
wrong and where: the way from the root of the value to the innermost field, key or item that was
being read. This module has the errors, their wording, and the readings of the simple types.

A record may be written as an object or as a list of its fields in order. Fields that a record does
not have are passed over.
-/

namespace OpenApiClient.Json

/-- How a value is called in a message. -/
inductive Found where
  | null
  | bool (b : Bool)
  | int (n : Int)
  | double (d : Double)
  | text (s : String)
  | sequence
  | map
  deriving DecidableEq, Repr

def found : Json → Found
  | .null => .null
  | .bool b => .bool b
  | .num (.int n) => .int n
  | .num (.double d) => .double d
  | .str s => .text s
  | .arr _ => .sequence
  | .obj _ => .map

/-- The wording of what was found, with doubles laid out as the format asks. -/
def Found.describe (layout : Double.Layout) : Found → String
  | null => "null"
  | bool b => "boolean `" ++ toString b ++ "`"
  | int n => "integer `" ++ toString n ++ "`"
  | double d => "floating point `" ++ d.text layout ++ "`"
  | text s => "string " ++ Text.showText s
  | sequence => "sequence"
  | map => "map"

/-- Why a value cannot be read as what is asked for. -/
inductive Mismatch where
  /-- Another type was expected. -/
  | wrongType (found : Found) (expected : String)
  /-- The type is right, but another value was expected. -/
  | wrongValue (found : Found) (expected : String)
  /-- A list has the wrong number of items. -/
  | wrongLength (length : Nat) (expected : String)
  /-- A record lacks a field. -/
  | missingField (name : String)
  /-- A record has a field twice. -/
  | duplicateField (name : String)
  /-- A record has a field that it must not have. -/
  | unknownField (name : String) (expected : List String)
  /-- A name is none of those that are allowed. -/
  | unknownVariant (name : String) (expected : List String)
  /-- None of the alternatives of a choice can be read. -/
  | noAlternative (choice : String)
  deriving DecidableEq, Repr

/-- Names in a message: one, two, or a list of them. -/
def oneOf : List String → String
  | [a] => "`" ++ a ++ "`"
  | [a, b] => "`" ++ a ++ "` or `" ++ b ++ "`"
  | names => "one of " ++ String.intercalate ", " (names.map fun n => "`" ++ n ++ "`")

def Mismatch.message (layout : Double.Layout) : Mismatch → String
  | wrongType found expected =>
    "invalid type: " ++ found.describe layout ++ ", expected " ++ expected
  | wrongValue found expected =>
    "invalid value: " ++ found.describe layout ++ ", expected " ++ expected
  | wrongLength length expected =>
    "invalid length " ++ toString length ++ ", expected " ++ expected
  | missingField name => "missing field `" ++ name ++ "`"
  | duplicateField name => "duplicate field `" ++ name ++ "`"
  | unknownField name expected => "unknown field `" ++ name ++ "`, expected " ++ oneOf expected
  | unknownVariant name expected => "unknown variant `" ++ name ++ "`, expected " ++ oneOf expected
  | noAlternative choice => "data did not match any variant of untagged enum " ++ choice

/-- One step from a value into it. -/
inductive Step where
  | key (name : String)
  | item (index : Nat)
  deriving DecidableEq, Repr

/-- A mismatch and the way to it. -/
structure ReadError where
  path : List Step
  cause : Mismatch
  deriving DecidableEq, Repr

/-- The way to an error as a text; a point stands for the root. -/
def pathText (path : List Step) : String :=
  if path.isEmpty then "." else go "" path
where
  /-- The steps after the first one are separated by points, unless they are items. -/
  go (separator : String) : List Step → String
    | [] => ""
    | .key name :: rest => separator ++ name ++ go "." rest
    | .item i :: rest => "[" ++ toString i ++ "]" ++ go "." rest

abbrev Typed := Except ReadError

/-- A reading of a part of a value: its errors lie one step further. -/
def within {α : Type} (step : Step) (r : Typed α) : Typed α :=
  r.mapError fun e => { e with path := step :: e.path }

/-- An error at the value itself. -/
def mismatch {α : Type} (cause : Mismatch) : Typed α :=
  .error ⟨[], cause⟩

def expected {α : Type} (what : String) (v : Json) : Typed α :=
  mismatch (.wrongType v.found what)

/-! ## Simple types -/

def asText : Json → Typed String
  | .str s => .ok s
  | v => expected "a string" v

def asFlag : Json → Typed Bool
  | .bool b => .ok b
  | v => expected "a boolean" v

def readItems {α : Type} (read : Json → Typed α) : Nat → List Json → Typed (List α)
  | _, [] => .ok []
  | i, v :: rest => do
    let a ← within (.item i) (read v)
    return a :: (← readItems read (i + 1) rest)

def asList {α : Type} (read : Json → Typed α) : Json → Typed (List α)
  | .arr items => readItems read 0 items
  | v => expected "a sequence" v

def readNamed {α : Type} (read : Json → Typed α) : List (String × Json) → Typed (List (String × α))
  | [] => .ok []
  | (k, v) :: rest => do
    let a ← within (.key k) (read v)
    return (k, a) :: (← readNamed read rest)

/-- Reads an object whose keys are free. -/
def asMap {α : Type} (read : Json → Typed α) : Json → Typed (List (String × α))
  | .obj entries => readNamed read entries
  | v => expected "a map" v

/-- Reads something that may be left out by writing null. -/
def asOptional {α : Type} (read : Json → Typed α) : Json → Typed (Option α)
  | .null => .ok none
  | v => (read v).map some

/-! ## Records -/

/-- A record type: what it is called, its fields in order and those that must not be missing. -/
structure Record where
  name : String
  fields : List String
  required : List String

/-- What a list that is too short for a record should have been. -/
def Record.shape (r : Record) : String :=
  "struct " ++ r.name ++ " with " ++ toString r.fields.length ++
    (if r.fields.length = 1 then " element" else " elements")

/-- Reads the entries of an object into a record, given how one field is entered. -/
def readEntries {σ : Type} (enter : String → Json → σ → Typed σ) :
    List (String × Json) → σ → Typed σ
  | [], s => .ok s
  | (k, v) :: rest, s => do
    let s ← within (.key k) (enter k v s)
    readEntries enter rest s

/-- Reads items into the fields of a record, in order. -/
def readPositions {σ : Type} (enter : String → Json → σ → Typed σ) :
    Nat → List String → List Json → σ → Typed σ
  | i, name :: names, v :: rest, s => do
    let s ← within (.item i) (enter name v s)
    readPositions enter (i + 1) names rest s
  | _, _, _, s => .ok s

/-- Checks that a list of `n` items has all required fields of a record and no item too many. -/
def Record.checkLength (r : Record) (n : Nat) : Typed Unit :=
  match (r.fields.drop n).find? (r.required.contains ·) with
  | some name => mismatch (.wrongLength (r.fields.findIdx (· == name)) r.shape)
  | none =>
    if r.fields.length < n then mismatch (.wrongLength n "fewer elements in array") else .ok ()

/-- Reads a record: its fields are entered one after another into a draft. -/
def asRecord {σ : Type} (r : Record) (enter : String → Json → σ → Typed σ) (draft : σ) :
    Json → Typed σ
  | .obj entries => readEntries enter entries draft
  | .arr items => do
    let s ← readPositions enter 0 r.fields items draft
    r.checkLength items.length
    return s
  | v => expected ("struct " ++ r.name) v

/-- A field that must have been entered. -/
def require {α : Type} (name : String) : Option α → Typed α
  | some a => .ok a
  | none => mismatch (.missingField name)

/-! ## Names -/

/-- Reads one of several names, given what each stands for. A name may also be written as the only
key of an object with the value null. -/
def asName {α : Type} (names : List (String × α)) : Json → Typed α
  | .str s => pick s
  | .obj [(s, v)] => do
    let a ← pick s
    match v with
    | .null => return a
    | v => within (.key s) (expected "unit" v)
  | .obj _ => mismatch (.wrongValue .map "map with a single key")
  | v => expected "string or map" v
where
  /-- What a name stands for. -/
  pick (s : String) : Typed α :=
    match names.lookup s with
    | some a => .ok a
    | none => mismatch (.unknownVariant s (names.map Prod.fst))

end OpenApiClient.Json
