import OpenApiClient.Document.Normal

/-!
# Selecting operations by tags

A selection keeps an operation if one of its tags is asked for, or no tag is, and its primary tag is
not excluded. Operations whose primary tag is the default tag are always kept. `Counts` says how
many operations a document has in all, of each method and with each tag.
-/

namespace OpenApiClient

/-- The tags that are asked for, all if there are none, and the tags that are excluded. -/
structure Selection where
  wanted : List String
  unwanted : List String
  deriving DecidableEq, Repr

def Selection.keeps (s : Selection) (op : Operation) : Bool :=
  op.primaryTag == defaultTag ||
    ((s.wanted.isEmpty || op.tags.any s.wanted.contains) && !s.unwanted.contains op.primaryTag)

/-- The operations of a path that are kept, without shared parameters. -/
def PathItem.restrict (keeps : Operation → Bool) (item : PathItem) : PathItem where
  parameters := []
  operations := item.operations.filter fun (_, op) => keeps op
  ordered := (List.filter_sublist.map Prod.fst).trans item.ordered

/-- The document with the operations that are kept; paths that are left without any are removed. -/
def Document.restrict (keeps : Operation → Bool) (d : Document) : Document :=
  { d with
    paths := (d.paths.map fun (path, item) => (path, item.restrict keeps)).filter
      fun (_, item) => !item.operations.isEmpty
    distinct := by
      refine List.Nodup.sublist (List.filter_sublist.map Prod.fst) ?_
      rw [List.map_map]
      exact d.distinct }

theorem Document.paths_restrict (keeps : Operation → Bool) (d : Document) :
    (d.restrict keeps).paths = (d.paths.map fun e => (e.1, e.2.restrict keeps)).filter
      fun e => !e.2.operations.isEmpty :=
  rfl

/-- The document with the selected operations only. -/
def Document.select (s : Selection) (d : Document) : Document :=
  d.restrict s.keeps

/-- Counts of operations, keys in the order of their first occurrence. -/
structure Counts where
  paths : Nat
  operations : Nat
  byMethod : List (Method × Nat)
  byTag : List (String × Nat)
  deriving DecidableEq, Repr

def countOne {α : Type} [DecidableEq α] (key : α) : List (α × Nat) → List (α × Nat)
  | [] => [(key, 1)]
  | (k, n) :: rest => if k = key then (k, n + 1) :: rest else (k, n) :: countOne key rest

/-- How often each item of a list occurs. -/
def tally {α : Type} [DecidableEq α] (keys : List α) : List (α × Nat) :=
  keys.foldl (fun counts key => countOne key counts) []

/-- The counts of a document. A tag is counted as often as operations name it. -/
def Document.counts (d : Document) : Counts :=
  ⟨d.paths.length, d.endpoints.length, tally (d.endpoints.map Endpoint.method),
    tally (d.endpoints.flatMap fun e => e.operation.tags)⟩

end OpenApiClient
