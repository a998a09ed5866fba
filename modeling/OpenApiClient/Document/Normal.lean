import OpenApiClient.Document.Basic
import OpenApiClient.Text.Lowercase
import OpenApiClient.Text.Slug

/-!
# Normal documents

After reading, a document is put into a normal form, so that nothing later has to ask whether a part
is missing: shared parameters are moved into the operations, every operation has a tag and an id,
and the tags of the operations are declared if no tag is.
-/

namespace OpenApiClient

/-- The largest number of characters of a made-up id. -/
def idLimit : Nat := 50

/-- An id made of words about an operation: the slug of the first of them that is not empty. -/
def makeId (summary description : String) : String :=
  let source := ([summary, description].find? fun s => !s.isEmpty).getD "operation"
  String.ofList ((Text.lateSlug '_' (Text.lowercase source.toList)).take idLimit)

/-- The items of a list without repetitions, each at its first place. -/
def firstSeen (names : List String) : List String :=
  names.foldl (fun seen name => if seen.contains name then seen else seen ++ [name]) []

namespace Parameter

/-- Whether two parameters are values for the same place in a request. -/
def sameSlot (p q : Parameter) : Bool :=
  p.name == q.name && p.location == q.location

/-- Parameters with shared ones added, each unless one for its place is there already. -/
def merge (own shared : List Parameter) : List Parameter :=
  shared.foldl (fun ps p => if ps.any fun q => q.sameSlot p then ps else ps ++ [p]) own

end Parameter

/-- The operation with an id and a tag and with the parameters that it shares. -/
def Operation.normalize (shared : List Parameter) (op : Operation) : Operation :=
  { op with
    parameters := Parameter.merge op.parameters shared
    id := if op.id.isEmpty then makeId op.summary op.description else op.id
    tags := if op.tags.isEmpty then [defaultTag] else op.tags }

def PathItem.normalize (item : PathItem) : PathItem where
  parameters := []
  operations := item.operations.map fun (m, op) => (m, op.normalize item.parameters)
  ordered := by
    rw [List.map_map]
    exact item.ordered

namespace Document

def operationTags (d : Document) : List String :=
  firstSeen (d.endpoints.flatMap fun e => e.operation.tags)

def declareTags (d : Document) : Document :=
  if d.tags.isEmpty then { d with tags := d.operationTags.map fun name => ⟨name, none⟩ } else d

/-- The document with the shared parameters of its paths moved into the operations. -/
def withNormalPaths (d : Document) : Document :=
  { d with
    paths := d.paths.map fun (path, item) => (path, item.normalize)
    distinct := by
      rw [List.map_map]
      exact d.distinct }

def normalize (d : Document) : Document :=
  d.withNormalPaths.declareTags

/-- The tags of a document: the declared ones, then those that only operations have. -/
def availableTags (d : Document) : List String :=
  firstSeen (d.tags.map Tag.name ++ d.operationTags)

end Document

end OpenApiClient
