import OpenApiClient.Config.Basic
import OpenApiClient.Document.Select

/-!
# Groups of operations

The operations that a client can call are grouped by their primary tags. Groups stand in the order
in which their tags come first, and the operations of a group in the order of the document.
-/

namespace OpenApiClient

/-- Operations under their primary tag. -/
abbrev Groups := List (String × List Endpoint)

namespace Document

/-- The operations of a path that a client can call, in the order of the client's methods. -/
def clientEndpointsOf (path : String) (item : PathItem) : List Endpoint :=
  Method.clientMethods.filterMap fun m =>
    (item.operations.lookup m).map fun op => ⟨path, m, op⟩

def clientEndpoints (d : Document) : List Endpoint :=
  d.paths.flatMap fun (path, item) => clientEndpointsOf path item

end Document

namespace Groups

/-- Adds an operation at the end of its group. -/
def insert (e : Endpoint) : Groups → Groups
  | [] => [(e.operation.primaryTag, [e])]
  | (tag, members) :: rest =>
    if tag = e.operation.primaryTag then (tag, members ++ [e]) :: rest
    else (tag, members) :: insert e rest

def ofEndpoints (endpoints : List Endpoint) : Groups :=
  endpoints.foldl (fun groups e => insert e groups) []

/-- Whether the group of a tag is generated. The default group always is. -/
def isRetained (outputTags excludeTags : List String) (tag : String) : Bool :=
  tag == defaultTag ||
    ((outputTags.isEmpty || outputTags.contains tag) && !excludeTags.contains tag)

def retain (outputTags excludeTags : List String) (groups : Groups) : Groups :=
  groups.filter fun (tag, _) => isRetained outputTags excludeTags tag

end Groups

def Document.groups (d : Document) : Groups :=
  Groups.ofEndpoints d.clientEndpoints

end OpenApiClient
