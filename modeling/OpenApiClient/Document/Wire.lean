import OpenApiClient.Document.Basic
import OpenApiClient.Schema.Wire

/-!
# Documents as raw values

How every part of a document is read from a raw value and written as one. Fields that have a usual
value may be left out on reading; on writing, some of them are left out again and some are always
written.
-/

namespace OpenApiClient

open Json (asText asFlag asList asMap asOptional asRecord asName require)

/-- An entry that is left out if a condition holds. -/
def entryUnless (omitted : Bool) (key : String) (v : Json) : List (String × Json) :=
  if omitted then [] else [(key, v)]

def entryOf {α : Type} (key : String) (write : α → Json) : Option α → List (String × Json)
  | none => []
  | some a => [(key, write a)]

def namedToJson {α : Type} (write : α → Json) (parts : List (String × α)) : Json :=
  .obj (parts.map fun (name, a) => (name, write a))

/-! ## Parameters, bodies and responses -/

namespace Parameter

def locationNames : List (String × Location) :=
  Location.all.map fun l => (l.name, l)

/-- The fields that were read so far. -/
structure Draft where
  name : Option String
  location : Option Location
  required : Bool
  schema : Option Schema
  description : Option String

def wireRecord : Json.Record where
  name := "Parameter"
  fields := ["name", "in", "required", "schema", "description"]
  required := ["name", "in"]

def enter (key : String) (v : Json) (d : Draft) : Json.Typed Draft :=
  match key with
  | "name" => do return { d with name := some (← asText v) }
  | "in" => do return { d with location := some (← asName locationNames v) }
  | "required" => do return { d with required := ← asFlag v }
  | "schema" => do return { d with schema := ← asOptional Schema.read v }
  | "description" => do return { d with description := ← asOptional asText v }
  | _ => .ok d

def read (v : Json) : Json.Typed Parameter := do
  let d ← asRecord wireRecord enter ⟨none, none, false, none, none⟩ v
  let name ← require "name" d.name
  let location ← require "in" d.location
  return ⟨name, location, d.required, d.schema, d.description⟩

def toJson (p : Parameter) : Json :=
  .obj ([("name", .str p.name), ("in", .str p.location.name), ("required", .bool p.required)] ++
    entryOf "schema" Schema.toJson p.schema ++ entryOf "description" Json.str p.description)

end Parameter

namespace MediaType

def wireRecord : Json.Record where
  name := "MediaType"
  fields := ["schema"]
  required := []

def enter (key : String) (v : Json) (m : MediaType) : Json.Typed MediaType :=
  match key with
  | "schema" => do return { m with schema := ← asOptional Schema.read v }
  | _ => .ok m

def read : Json → Json.Typed MediaType :=
  asRecord wireRecord enter ⟨none⟩

def toJson (m : MediaType) : Json :=
  .obj (entryOf "schema" Schema.toJson m.schema)

end MediaType

namespace RequestBody

def wireRecord : Json.Record where
  name := "RequestBody"
  fields := ["description", "content", "required"]
  required := []

def enter (key : String) (v : Json) (b : RequestBody) : Json.Typed RequestBody :=
  match key with
  | "description" => do return { b with description := ← asOptional asText v }
  | "content" => do return { b with content := ← asMap MediaType.read v }
  | "required" => do return { b with required := ← asFlag v }
  | _ => .ok b

def read : Json → Json.Typed RequestBody :=
  asRecord wireRecord enter ⟨none, [], false⟩

def toJson (b : RequestBody) : Json :=
  .obj (entryOf "description" Json.str b.description ++
    [("content", namedToJson MediaType.toJson b.content), ("required", .bool b.required)])

end RequestBody

namespace Response

def wireRecord : Json.Record where
  name := "Response"
  fields := ["description", "content"]
  required := []

def enter (key : String) (v : Json) (r : Response) : Json.Typed Response :=
  match key with
  | "description" => do return { r with description := ← asText v }
  | "content" => do return { r with content := ← asMap MediaType.read v }
  | _ => .ok r

def read : Json → Json.Typed Response :=
  asRecord wireRecord enter ⟨"", []⟩

def toJson (r : Response) : Json :=
  .obj (("description", .str r.description) ::
    entryUnless r.content.isEmpty "content" (namedToJson MediaType.toJson r.content))

end Response

/-! ## Operations and paths -/

namespace Operation

def wireRecord : Json.Record where
  name := "Operation"
  fields := ["description", "operationId", "parameters", "requestBody", "responses", "summary",
    "tags", "deprecated"]
  required := []

def enter (key : String) (v : Json) (op : Operation) : Json.Typed Operation :=
  match key with
  | "description" => do return { op with description := ← asText v }
  | "operationId" => do return { op with id := ← asText v }
  | "parameters" => do return { op with parameters := ← asList Parameter.read v }
  | "requestBody" => do return { op with requestBody := ← asOptional RequestBody.read v }
  | "responses" => do return { op with responses := ← asMap Response.read v }
  | "summary" => do return { op with summary := ← asText v }
  | "tags" => do return { op with tags := ← asList asText v }
  | "deprecated" => do return { op with deprecated := ← asFlag v }
  | _ => .ok op

def read : Json → Json.Typed Operation :=
  asRecord wireRecord enter ⟨"", "", [], none, [], "", [], false⟩

def toJson (op : Operation) : Json :=
  .obj ([("description", .str op.description), ("operationId", .str op.id),
      ("parameters", .arr (op.parameters.map Parameter.toJson))] ++
    entryOf "requestBody" RequestBody.toJson op.requestBody ++
    [("responses", namedToJson Response.toJson op.responses), ("summary", .str op.summary),
      ("tags", .arr (op.tags.map .str))] ++
    entryUnless (!op.deprecated) "deprecated" (.bool op.deprecated))

end Operation

namespace PathItem

/-- The fields that were read so far. -/
structure Draft where
  parameters : List Parameter
  operations : List (Method × Operation)

def wireRecord : Json.Record where
  name := "PathItem"
  fields := "parameters" :: Method.all.map Method.name
  required := []

/-- Enters a field. An operation takes the place of an earlier one of its method. -/
def enter (key : String) (v : Json) (d : Draft) : Json.Typed Draft :=
  if key = "parameters" then do
    return { d with parameters := ← asList Parameter.read v }
  else
    match Method.ofName? key with
    | none => .ok d
    | some m => do
      let op ← asOptional Operation.read v
      let others := d.operations.filter fun (other, _) => other ≠ m
      return { d with operations := others ++ (op.map fun op => (m, op)).toList }

def sortOperations (operations : List (Method × Operation)) : List (Method × Operation) :=
  Method.all.filterMap fun m => (operations.lookup m).map fun op => (m, op)

theorem map_fst_filterMap {α : Type} (g : Method → Option α) (ms : List Method) :
    ((ms.filterMap fun m => (g m).map fun a => (m, a)).map Prod.fst).Sublist ms := by
  induction ms with
  | nil => exact List.Sublist.refl []
  | cons m ms ih =>
    cases hm : g m with
    | none => simpa [hm] using ih.cons m
    | some a => simpa [hm] using ih.cons_cons m

def read (v : Json) : Json.Typed PathItem := do
  let d ← asRecord wireRecord enter ⟨[], []⟩ v
  return ⟨d.parameters, sortOperations d.operations, map_fst_filterMap _ Method.all⟩

def toJson (item : PathItem) : Json :=
  .obj (entryUnless item.parameters.isEmpty "parameters"
      (.arr (item.parameters.map Parameter.toJson)) ++
    item.operations.map fun (m, op) => (m.name, op.toJson))

end PathItem

/-! ## Documents -/

namespace Info

/-- The fields that were read so far. -/
structure Draft where
  title : Option String
  version : Option String
  description : Option String

/-- The record of what a document says about itself. -/
def wireRecord : Json.Record where
  name := "Info"
  fields := ["title", "version", "description"]
  required := ["title", "version"]

def enter (key : String) (v : Json) (d : Draft) : Json.Typed Draft :=
  match key with
  | "title" => do return { d with title := some (← asText v) }
  | "version" => do return { d with version := some (← asText v) }
  | "description" => do return { d with description := ← asOptional asText v }
  | _ => .ok d

/-- Reads what a document says about itself. -/
def read (v : Json) : Json.Typed Info := do
  let d ← asRecord wireRecord enter ⟨none, none, none⟩ v
  let title ← require "title" d.title
  let version ← require "version" d.version
  return ⟨title, version, d.description⟩

/-- The raw value of what a document says about itself. -/
def toJson (i : Info) : Json :=
  .obj ([("title", .str i.title), ("version", .str i.version)] ++
    entryOf "description" Json.str i.description)

end Info

namespace Tag

/-- The fields that were read so far. -/
structure Draft where
  name : Option String
  description : Option String

def wireRecord : Json.Record where
  name := "Tag"
  fields := ["name", "description"]
  required := ["name"]

def enter (key : String) (v : Json) (d : Draft) : Json.Typed Draft :=
  match key with
  | "name" => do return { d with name := some (← asText v) }
  | "description" => do return { d with description := ← asOptional asText v }
  | _ => .ok d

def read (v : Json) : Json.Typed Tag := do
  let d ← asRecord wireRecord enter ⟨none, none⟩ v
  let name ← require "name" d.name
  return ⟨name, d.description⟩

def toJson (t : Tag) : Json :=
  .obj (("name", .str t.name) :: entryOf "description" Json.str t.description)

end Tag

namespace Components

def wireRecord : Json.Record where
  name := "Components"
  fields := ["schemas", "parameters", "requestBodies", "responses"]
  required := []

def enter (key : String) (v : Json) (c : Components) : Json.Typed Components :=
  match key with
  | "schemas" => do return { c with schemas := ← asMap Schema.read v }
  | "parameters" => do return { c with parameters := ← asMap Parameter.read v }
  | "requestBodies" => do return { c with requestBodies := ← asMap RequestBody.read v }
  | "responses" => do return { c with responses := ← asMap Response.read v }
  | _ => .ok c

def read : Json → Json.Typed Components :=
  asRecord wireRecord enter ⟨[], [], [], []⟩

/-- A section of the components, left out if it is empty. -/
def sectionEntry {α : Type} (key : String) (write : α → Json) (parts : List (String × α)) :
    List (String × Json) :=
  entryUnless parts.isEmpty key (namedToJson write parts)

def toJson (c : Components) : Json :=
  .obj (sectionEntry "schemas" Schema.toJson c.schemas ++
    sectionEntry "parameters" Parameter.toJson c.parameters ++
    sectionEntry "requestBodies" RequestBody.toJson c.requestBodies ++
    sectionEntry "responses" Response.toJson c.responses)

end Components

namespace Document

/-- The fields that were read so far. -/
structure Draft where
  version : Option String
  info : Option Info
  paths : List (String × PathItem)
  components : Option Components
  tags : List Tag

def wireRecord : Json.Record where
  name := "Document"
  fields := ["openapi", "info", "paths", "components", "tags"]
  required := ["openapi", "info"]

def enter (key : String) (v : Json) (d : Draft) : Json.Typed Draft :=
  match key with
  | "openapi" => do return { d with version := some (← asText v) }
  | "info" => do return { d with info := some (← Info.read v) }
  | "paths" => do return { d with paths := ← asMap PathItem.read v }
  | "components" => do return { d with components := ← asOptional Components.read v }
  | "tags" => do return { d with tags := ← asList Tag.read v }
  | _ => .ok d

def readTyped (v : Json) : Json.Typed Document := do
  let d ← asRecord wireRecord enter ⟨none, none, [], none, []⟩ v
  let version ← require "openapi" d.version
  let info ← require "info" d.info
  return ⟨version, info, Entries.ofList d.paths, d.components, d.tags,
    Entries.nodup_keys_ofList d.paths⟩

def toJson (d : Document) : Json :=
  .obj ([("openapi", .str d.version), ("info", d.info.toJson),
      ("paths", namedToJson PathItem.toJson d.paths)] ++
    entryOf "components" Components.toJson d.components ++
    entryUnless d.tags.isEmpty "tags" (.arr (d.tags.map Tag.toJson)))

end Document

end OpenApiClient
