import OpenApiClient.Schema.Basic

/-!
# Documents

The typed form of an API description, with the parts of it that a client is generated from. Paths,
components, responses and contents keep the order in which they are written.
-/

namespace OpenApiClient

inductive Method where
  | get
  | post
  | put
  | delete
  | patch
  | head
  | options
  | trace
  deriving DecidableEq, Repr

namespace Method

/-- All methods, in the order in which a path lists its operations. -/
def all : List Method := [get, post, put, delete, patch, head, options, trace]

def clientMethods : List Method := [get, post, put, delete, patch]

def name : Method → String
  | get => "get"
  | post => "post"
  | put => "put"
  | delete => "delete"
  | patch => "patch"
  | head => "head"
  | options => "options"
  | trace => "trace"

def wireName : Method → String
  | get => "GET"
  | post => "POST"
  | put => "PUT"
  | delete => "DELETE"
  | patch => "PATCH"
  | head => "HEAD"
  | options => "OPTIONS"
  | trace => "TRACE"

def ofName? (s : String) : Option Method :=
  all.find? fun m => m.name == s

end Method

/-! ## Parameters, bodies and responses -/

/-- Where a parameter stands in a request. -/
inductive Location where
  | query
  | header
  | path
  | cookie
  deriving DecidableEq, Repr

def Location.name : Location → String
  | query => "query"
  | header => "header"
  | path => "path"
  | cookie => "cookie"

def Location.all : List Location := [.query, .header, .path, .cookie]

structure Parameter where
  name : String
  location : Location
  required : Bool
  schema : Option Schema
  description : Option String
  deriving DecidableEq, Repr

/-- A content of a body or a response. -/
structure MediaType where
  schema : Option Schema
  deriving DecidableEq, Repr, Inhabited

structure RequestBody where
  description : Option String
  content : List (String × MediaType)
  required : Bool
  deriving DecidableEq, Repr, Inhabited

def RequestBody.preferredTypes : List String :=
  ["application/json", "application/x-www-form-urlencoded", "multipart/form-data"]

/-- The schema of the preferred content: JSON, then forms, then whatever comes first. -/
def RequestBody.schema? (b : RequestBody) : Option Schema :=
  ((preferredTypes.findSome? fun t => Entries.get? t b.content).or
    (b.content.head?.map Prod.snd)).bind MediaType.schema

structure Response where
  description : String
  content : List (String × MediaType)
  deriving DecidableEq, Repr, Inhabited

/-! ## Operations -/

def defaultTag : String := "default"

structure Operation where
  description : String
  id : String
  parameters : List Parameter
  requestBody : Option RequestBody
  responses : List (String × Response)
  summary : String
  tags : List String
  deprecated : Bool
  deriving DecidableEq, Repr, Inhabited

namespace Operation

/-- The tag that decides to which group an operation belongs. -/
def primaryTag (op : Operation) : String :=
  op.tags.head?.getD defaultTag

def parametersIn (location : Location) (op : Operation) : List Parameter :=
  op.parameters.filter fun p => p.location = location

theorem mem_parametersIn {location : Location} {op : Operation} {p : Parameter} :
    p ∈ op.parametersIn location ↔ p ∈ op.parameters ∧ p.location = location := by
  simp [parametersIn]

/-- The schema of the first content of the response for success. -/
def successSchema? (op : Operation) : Option Schema :=
  (Entries.get? "200" op.responses).bind fun r =>
    (r.content.head?.map Prod.snd).bind MediaType.schema

def bodySchema? (op : Operation) : Option Schema :=
  op.requestBody.bind RequestBody.schema?

end Operation

/-- A path: the parameters that its operations share, and the operations in the order of
`Method.all`, at most one for each method. -/
@[ext] structure PathItem where
  parameters : List Parameter
  operations : List (Method × Operation)
  ordered : (operations.map Prod.fst).Sublist Method.all := by decide
  deriving DecidableEq, Repr

instance : Inhabited PathItem :=
  ⟨⟨[], [], List.nil_sublist _⟩⟩

theorem PathItem.nodup_methods (item : PathItem) : (item.operations.map Prod.fst).Nodup :=
  List.Nodup.sublist item.ordered (by decide)

/-! ## Documents -/

/-- What a document says about itself. -/
structure Info where
  title : String
  version : String
  description : Option String
  deriving DecidableEq, Repr

/-- The named parts of a document. -/
structure Components where
  schemas : List (String × Schema)
  parameters : List (String × Parameter)
  requestBodies : List (String × RequestBody)
  responses : List (String × Response)
  deriving DecidableEq, Repr, Inhabited

structure Tag where
  name : String
  description : Option String
  deriving DecidableEq, Repr

/-- An API description. No path stands in it twice. -/
@[ext] structure Document where
  version : String
  info : Info
  paths : List (String × PathItem)
  components : Option Components
  tags : List Tag
  distinct : (paths.map Prod.fst).Nodup := by decide
  deriving DecidableEq, Repr

structure Endpoint where
  path : String
  method : Method
  operation : Operation
  deriving DecidableEq, Repr

/-- How messages name an operation. -/
def Endpoint.location (e : Endpoint) : String :=
  e.method.wireName ++ " " ++ e.path

namespace Document

def schemas (d : Document) : List (String × Schema) :=
  match d.components with
  | none => []
  | some c => c.schemas

def schema? (d : Document) (name : String) : Option Schema :=
  Entries.get? name d.schemas

def endpointsOf (path : String) (item : PathItem) : List Endpoint :=
  item.operations.map fun (method, operation) => ⟨path, method, operation⟩

def endpoints (d : Document) : List Endpoint :=
  d.paths.flatMap fun (path, item) => endpointsOf path item

end Document

end OpenApiClient
