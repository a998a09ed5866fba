import OpenApiClient.Schema.Basic
import OpenApiClient.Json.Typed

/-!
# Schemas as raw values

A schema is written as an object of keywords. On reading, all keywords are collected first and then
the shape is decided: a reference wins over a combination, that over an enumeration, that over the
declared type, and without a type the properties or the items tell an object or an array. Keywords
that do not belong to the shape are dropped, so what is read is complete and says nothing twice.
-/

namespace OpenApiClient.Schema

/-- What is said about further entries of an object: whether there may be any, or their schema. -/
inductive Additional where
  | flag (allowed : Bool)
  | schema (s : Schema)

structure Keywords where
  ref : Option String := none
  type : Option (List String) := none
  title : Option String := none
  description : Option String := none
  format : Option String := none
  enum : Option (List Json) := none
  items : Option Schema := none
  properties : Option (List (String × Schema)) := none
  required : Option (List String) := none
  additional : Option Additional := none
  allOf : Option (List Schema) := none
  anyOf : Option (List Schema) := none
  oneOf : Option (List Schema) := none

def wireRecord : Json.Record where
  name := "RawSchema"
  fields := ["$ref", "type", "title", "description", "format", "enum", "items", "properties",
    "required", "additionalProperties", "allOf", "anyOf", "oneOf"]
  required := []

/-! ## From keywords to a schema -/

/-- The type that counts of those declared: the first that is not null, else the first. -/
def mainType (types : List String) : Option String :=
  (types.find? (· ≠ "null")).or types.head?

def nonEmpty {α : Type} (list : Option (List α)) : Option (List α) :=
  list.filter fun l => !l.isEmpty

/-- The items of a list without those that stood before. -/
def distinct : List String → List String
  | [] => []
  | x :: rest => x :: (distinct rest).filter (· ≠ x)

/-- The combination that is used if several are given. -/
def Keywords.combination (k : Keywords) : Option (Combinator × List Schema) :=
  ((nonEmpty k.allOf).map (.allOf, ·)).or
    (((nonEmpty k.anyOf).map (.anyOf, ·)).or ((nonEmpty k.oneOf).map (.oneOf, ·)))

def Keywords.toObject (k : Keywords) (notes : Notes) : Schema :=
  .object notes (k.properties.getD []) (distinct (k.required.getD []))
    (match k.additional with
      | some (.schema s) => some s
      | _ => none)

def Keywords.ofType (k : Keywords) (notes : Notes) (type : String) : Schema :=
  if type = "array" then .array notes k.items
  else if type = "object" then k.toObject notes
  else
    match Primitive.ofName? type with
    | some p => .primitive notes p
    | none => .anything notes (some type)

def Keywords.toSchema (k : Keywords) : Schema :=
  let notes : Notes := ⟨k.title, k.description, k.format⟩
  let type := k.type.bind mainType
  match k.ref with
  | some pointer => .reference notes pointer
  | none =>
    match k.combination with
    | some (kind, branches) => .combination notes kind branches
    | none =>
      match nonEmpty k.enum with
      | some values => .enumeration notes (type.bind Primitive.ofName?) values
      | none =>
        match type with
        | some type => k.ofType notes type
        | none =>
          if k.properties.isSome then k.toObject notes
          else if k.items.isSome then .array notes k.items
          else .anything notes none

/-! ## Reading -/

/-- Reads the declared type: one name or a list of names. -/
def asTypes : Json → Json.Typed (List String)
  | .str s => .ok [s]
  | v =>
    match Json.asList Json.asText v with
    | .ok types => .ok types
    | .error _ => Json.mismatch (.noAlternative "TypeField")

/-- Reads what is said about further entries, given the reading of a schema. -/
def asAdditional (read : Unit → Json.Typed Schema) : Json → Json.Typed Additional
  | .bool b => .ok (.flag b)
  | _ =>
    match read () with
    | .ok s => .ok (.schema s)
    | .error _ => Json.mismatch (.noAlternative "AdditionalProperties")

/-- Something that may be left out by writing null, given its reading. -/
def unlessNull {α : Type} (v : Json) (read : Unit → Json.Typed α) : Json.Typed (Option α) :=
  match v with
  | .null => .ok none
  | _ => (read ()).map some

/-- Enters a keyword, given the readings of its value as a schema, as a list of schemas and as named
schemas. -/
def enterKeyword (key : String) (v : Json) (one : Unit → Json.Typed Schema)
    (list : Unit → Json.Typed (List Schema)) (named : Unit → Json.Typed (List (String × Schema)))
    (k : Keywords) : Json.Typed Keywords :=
  match key with
  | "$ref" => do return { k with ref := ← Json.asOptional Json.asText v }
  | "type" => do return { k with type := ← Json.asOptional asTypes v }
  | "title" => do return { k with title := ← Json.asOptional Json.asText v }
  | "description" => do return { k with description := ← Json.asOptional Json.asText v }
  | "format" => do return { k with format := ← Json.asOptional Json.asText v }
  | "enum" => do return { k with enum := ← Json.asOptional (Json.asList .ok) v }
  | "items" => do return { k with items := ← unlessNull v one }
  | "properties" => do return { k with properties := ← unlessNull v named }
  | "required" => do return { k with required := ← Json.asOptional (Json.asList Json.asText) v }
  | "additionalProperties" => do
    return { k with additional := ← unlessNull v fun _ => asAdditional one v }
  | "allOf" => do return { k with allOf := ← unlessNull v list }
  | "anyOf" => do return { k with anyOf := ← unlessNull v list }
  | "oneOf" => do return { k with oneOf := ← unlessNull v list }
  | _ => .ok k

mutual

def read : Json → Json.Typed Schema
  | .obj entries => do return (← readKeywords entries {}).toSchema
  | .arr items => do
    let k ← readPositions 0 wireRecord.fields items {}
    wireRecord.checkLength items.length
    return k.toSchema
  | v => Json.expected "struct RawSchema" v
termination_by structural v => v

def readKeywords : List (String × Json) → Keywords → Json.Typed Keywords
  | [], k => .ok k
  | (key, v) :: rest, k => do
    let k ← Json.within (.key key)
      (enterKeyword key v (fun _ => read v) (fun _ => readList v) (fun _ => readMap v) k)
    readKeywords rest k
termination_by structural entries => entries

def readPositions : Nat → List String → List Json → Keywords → Json.Typed Keywords
  | i, key :: keys, v :: rest, k => do
    let k ← Json.within (.item i)
      (enterKeyword key v (fun _ => read v) (fun _ => readList v) (fun _ => readMap v) k)
    readPositions (i + 1) keys rest k
  | _, _, _, k => .ok k
termination_by structural _ _ items => items

def readList : Json → Json.Typed (List Schema)
  | .arr items => readBranches 0 items
  | v => Json.expected "a sequence" v
termination_by structural v => v

def readBranches : Nat → List Json → Json.Typed (List Schema)
  | _, [] => .ok []
  | i, v :: rest => do
    let s ← Json.within (.item i) (read v)
    return s :: (← readBranches (i + 1) rest)
termination_by structural _ items => items

def readMap : Json → Json.Typed (List (String × Schema))
  | .obj entries => readProperties entries
  | v => Json.expected "a map" v
termination_by structural v => v

/-- Reads the schemas of an object's entries. -/
def readProperties : List (String × Json) → Json.Typed (List (String × Schema))
  | [] => .ok []
  | (name, v) :: rest => do
    let s ← Json.within (.key name) (read v)
    return (name, s) :: (← readProperties rest)
termination_by structural entries => entries

end

/-! ## Writing -/

/-- An entry that is left out if it has no value. -/
def optionalEntry (key : String) (v : Option Json) : List (String × Json) :=
  match v with
  | some v => [(key, v)]
  | none => []

/-- The entries of a schema: its pointer, its type, its words and what its shape adds. -/
def wireEntries (notes : Notes) (ref type : Option String) (rest : List (String × Json)) : Json :=
  .obj (optionalEntry "$ref" (ref.map .str) ++ optionalEntry "type" (type.map .str) ++
    optionalEntry "title" (notes.title.map .str) ++
    optionalEntry "description" (notes.description.map .str) ++
    optionalEntry "format" (notes.format.map .str) ++ rest)

/-- A list of texts as an entry that is left out if it is empty. -/
def textsEntry (key : String) (texts : List String) : List (String × Json) :=
  optionalEntry key (if texts.isEmpty then none else some (.arr (texts.map .str)))

mutual

def toJson : Schema → Json
  | reference notes pointer => wireEntries notes (some pointer) none []
  | primitive notes p => wireEntries notes none (some p.name) []
  | enumeration notes base values =>
    wireEntries notes none (base.map Primitive.name) [("enum", .arr values)]
  | array notes none => wireEntries notes none (some "array") []
  | array notes (some items) => wireEntries notes none (some "array") [("items", toJson items)]
  | object notes [] required none =>
    wireEntries notes none (some "object") (textsEntry "required" required)
  | object notes [] required (some extra) =>
    wireEntries notes none (some "object")
      (textsEntry "required" required ++ [("additionalProperties", toJson extra)])
  | object notes (p :: ps) required none =>
    wireEntries notes none (some "object")
      (("properties", .obj (propertiesToJson (p :: ps))) :: textsEntry "required" required)
  | object notes (p :: ps) required (some extra) =>
    wireEntries notes none (some "object")
      (("properties", .obj (propertiesToJson (p :: ps))) ::
        (textsEntry "required" required ++ [("additionalProperties", toJson extra)]))
  | combination notes kind branches =>
    wireEntries notes none none [(kind.name, .arr (branchesToJson branches))]
  | anything notes type => wireEntries notes none type []
termination_by structural s => s

def propertiesToJson : List (String × Schema) → List (String × Json)
  | [] => []
  | (name, s) :: rest => (name, toJson s) :: propertiesToJson rest
termination_by structural ps => ps

def branchesToJson : List Schema → List Json
  | [] => []
  | s :: rest => toJson s :: branchesToJson rest
termination_by structural bs => bs

end

end OpenApiClient.Schema
