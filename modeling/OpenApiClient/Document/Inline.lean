import OpenApiClient.Document.Basic

/-!
# References in place

Parameters, request bodies and responses may be given by references to components. Before a document
is read, every such reference is replaced by what it leads to. Components may be references in
turn, so a reference is followed up to fifteen times; one that leads nowhere, into another section
or in a circle is taken out.
-/

namespace OpenApiClient.Inline

/-- How many values are looked at for one reference. -/
def chainLimit : Nat := 16

def target? (components : List (String × Json)) (sectionName pointer : String) : Option Json := do
  let name ← Pointer.nameIn? sectionName pointer
  let named ← Entries.get? sectionName components
  named.get? name

/-- What a value leads to if at most `fuel` values are looked at; a value that is no reference leads
to itself. -/
def follow? (components : List (String × Json)) (sectionName : String) : Nat → Json → Option Json
  | 0, _ => none
  | fuel + 1, v =>
    match (v.get? "$ref").bind Json.text? with
    | none => some v
    | some pointer =>
      (target? components sectionName pointer).bind (follow? components sectionName fuel)

def resolve? (components : List (String × Json)) (sectionName : String) (v : Json) : Option Json :=
  follow? components sectionName chainLimit v

/-- A list of parameters without references; what is no list is left alone. -/
def parameters (components : List (String × Json)) (v : Json) : Json :=
  match v with
  | .arr items => .arr (items.filterMap (resolve? components "parameters"))
  | other => other

/-- Responses without references; what is no object is left alone. -/
def responses (components : List (String × Json)) (v : Json) : Json :=
  match v with
  | .obj entries =>
    .obj (entries.filterMap fun (status, response) =>
      (resolve? components "responses" response).map fun r => (status, r))
  | other => other

/-- The entries of an operation with its body resolved. The place of a body that leads nowhere is
taken by the last entry. -/
def requestBody (components : List (String × Json)) (entries : List (String × Json)) :
    List (String × Json) :=
  match Entries.get? "requestBody" entries with
  | none => entries
  | some body =>
    match resolve? components "requestBodies" body with
    | some body => Entries.modify "requestBody" (fun _ => body) entries
    | none => Entries.swapRemove "requestBody" entries

def operation (components : List (String × Json)) (v : Json) : Json :=
  match v with
  | .obj entries =>
    let entries := Entries.modify "parameters" (parameters components) entries
    let entries := requestBody components entries
    .obj (Entries.modify "responses" (responses components) entries)
  | other => other

def pathItem (components : List (String × Json)) (v : Json) : Json :=
  match v with
  | .obj entries =>
    let entries := Entries.modify "parameters" (parameters components) entries
    .obj (Method.all.foldl
      (fun entries m => Entries.modify m.name (operation components) entries) entries)
  | other => other

/-- A raw document without references in its paths. -/
def document (v : Json) : Json :=
  match v with
  | .obj root =>
    let components := ((Entries.get? "components" root).bind Json.entries?).getD []
    .obj (Entries.modify "paths"
      (fun paths =>
        match paths with
        | .obj items => .obj (items.map fun (path, item) => (path, pathItem components item))
        | other => other)
      root)
  | other => other

end OpenApiClient.Inline
