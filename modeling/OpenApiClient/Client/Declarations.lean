import OpenApiClient.Client.RequestShape

/-!
# Declarations of types

The types that a file declares: those of named schemas, and for each operation those of its request,
its data and its response. A name is declared once in a file; what would declare it again is left
out and reported.
-/

namespace OpenApiClient

open Code (Declaration Member)

/-- The members of properties, given the names of the required ones. -/
def propertyMembers (c : TypeContext) (location : String) (required : List String)
    (properties : List (String × Schema)) : Noted (List Member) :=
  Noted.each
    (fun (name, s) => do
      let type ← s.typeAt c location
      return ⟨Code.propertyKey name, type.text, c.memberDoc s, !required.contains name⟩)
    properties

def declaredNote (location name : String) : Diagnostic :=
  .typeWarning location ("type `" ++ name ++ "` is already declared, skipped")

/-! ## Named schemas -/

def schemaLocation (name : String) : String :=
  "components.schemas." ++ name

def schemaDeclaration (c : TypeContext) (name : String) (s : Schema) : Noted Declaration := do
  let location := schemaLocation name
  let definition ←
    match s.properties? with
    | some (properties, required) => do
      pure (.interface (← propertyMembers c location required properties))
    | none => do
      pure (.alias (← s.typeAt c location).text)
  return { name := c.typeName name, doc := c.descriptionDoc s.notes.description, definition }

/-- The declarations of named schemas whose names are not declared yet, and all declared names
after them. -/
def schemaDeclarations (c : TypeContext) :
    List String → List (String × Schema) → Noted (List Declaration × List String)
  | declared, [] => return ([], declared)
  | declared, (name, s) :: rest => do
    let typeName := c.typeName name
    if declared.contains typeName then
      Noted.note (declaredNote (schemaLocation name) typeName)
      schemaDeclarations c declared rest
    else
      let d ← schemaDeclaration c name s
      let (ds, declared) ← schemaDeclarations c (typeName :: declared) rest
      return (d :: ds, declared)

/-! ## Schemas that operations need -/

/-- The schemas of an operation: of its parameters, of its body and of its response. -/
def Operation.schemas (op : Operation) : List Schema :=
  op.parameters.filterMap Parameter.schema ++ op.bodySchema?.toList ++ op.successSchema?.toList

/-- The names that several schemas refer to. -/
def referencesOf (schemas : List Schema) : List String :=
  schemas.flatMap Schema.references

namespace Document

/-- The number of named schemas whose names are not reached. -/
def unreached (d : Document) (reached : List String) : Nat :=
  (d.schemas.filter fun e => !reached.contains e.1).length

theorem unreached_cons (d : Document) (name : String) (reached : List String) :
    d.unreached (name :: reached) =
      ((d.schemas.filter fun e => !reached.contains e.1).filter
        fun e => !(e.1 == name)).length := by
  rw [unreached, List.filter_filter]
  simp only [List.contains_cons, Bool.not_or]

theorem unreached_cons_le (d : Document) (name : String) (reached : List String) :
    d.unreached (name :: reached) ≤ d.unreached reached := by
  rw [unreached_cons]
  exact List.length_filter_le _ _

/-- A new name of a schema leaves fewer schemas that are not reached. -/
theorem unreached_cons_lt {d : Document} {name : String} {s : Schema} {reached : List String}
    (hs : d.schema? name = some s) (hname : ¬reached.contains name = true) :
    d.unreached (name :: reached) < d.unreached reached := by
  rw [unreached_cons, unreached, List.length_filter_lt_length_iff_exists]
  refine ⟨(name, s), List.mem_filter.mpr ⟨Entries.mem_of_get? hs, ?_⟩, ?_⟩
  · simpa using hname
  · simp

/-- The names that are reached by references. The first of the pending names is taken. If it is new,
it is reached, and what its schema refers to comes before the other pending names, the last one
first; a name without a schema leads nowhere. Every step leaves fewer schemas that are not reached,
or fewer pending names. -/
def reach (d : Document) (pending reached : List String) : List String :=
  match pending with
  | [] => reached
  | name :: pending =>
    if _hname : reached.contains name then d.reach pending reached
    else
      match _hs : d.schema? name with
      | none => d.reach pending (name :: reached)
      | some s => d.reach (s.references.reverse ++ pending) (name :: reached)
termination_by (d.unreached reached, pending.length)
decreasing_by
  · exact Prod.Lex.right _ (Nat.lt_succ_self _)
  · rcases Nat.lt_or_eq_of_le (d.unreached_cons_le name reached) with hless | hsame
    · exact Prod.Lex.left _ _ hless
    · rw [hsame]
      exact Prod.Lex.right _ (Nat.lt_succ_self _)
  · exact Prod.Lex.left _ _ (unreached_cons_lt _hs _hname)

/-- The named schemas that operations need, directly or through others, in the order of the
document. -/
def schemasUsedBy (d : Document) (operations : List Operation) : List (String × Schema) :=
  let named := operations.flatMap fun op => referencesOf op.schemas
  let names := d.reach named.reverse []
  d.schemas.filter fun (name, _) => names.contains name

end Document

/-! ## Operations -/

inductive DataShape where
  /-- A type of its own that is another name for one. -/
  | alias (type : Code.TypeExpr)
  /-- A type of its own with members. -/
  | interface (members : List Member)
  /-- A type that is written in its place. -/
  | inline (type : Code.TypeExpr)
  deriving Repr

/-- The note that nothing is known about the data. -/
def noDataNote (location : String) : Diagnostic :=
  .typeInfo location "no `200` response schema, `data` is typed `any`"

def DataShape.of (c : TypeContext) (op : PlannedOperation) : Noted DataShape :=
  match op.operation.successSchema? with
  | none => do
    Noted.note (noDataNote op.location)
    return .inline .any
  | some s =>
    match s with
    | .reference _ _ | .array _ _ => do return .alias (← s.typeAt c op.location)
    | _ =>
      match s.properties? with
      | some (properties, required) => do
        return .interface (← propertyMembers c op.location required properties)
      | none => do return .inline (← s.typeAt c op.location)

def PlannedOperation.label (op : PlannedOperation) : String :=
  let summary := Text.trimString op.operation.summary
  if summary.isEmpty then op.names.function else summary

def PlannedOperation.typeDoc (c : TypeContext) (op : PlannedOperation) (what : String) :
    Option String :=
  if c.comments then some (op.label ++ " " ++ what) else none

/-- The type of a request, unless there is nothing to pass. -/
def requestDeclarations (c : TypeContext) (op : PlannedOperation) (shape : RequestShape) :
    List Declaration :=
  if shape.isEmpty then []
  else
    [{ name := op.names.requestType, doc := op.typeDoc c "request",
       definition := .interface shape.members }]

/-- The type of the data of a response, if it has a name of its own. -/
def dataDeclarations (op : PlannedOperation) : DataShape → List Declaration
  | .alias type => [{ name := op.names.dataType, doc := none, definition := .alias type.text }]
  | .interface members =>
    [{ name := op.names.dataType, doc := none, definition := .interface members }]
  | .inline _ => []

def dataTypeText (op : PlannedOperation) : DataShape → String
  | .inline type => type.text
  | _ => op.names.dataType

def responseDeclaration (c : TypeContext) (op : PlannedOperation) (data : DataShape) :
    Declaration where
  name := op.names.responseType
  doc := op.typeDoc c "response"
  definition := .interface
    [{ key := "code", type := "number" }, { key := "message", type := "string" },
      { key := "data", type := dataTypeText op data }]

/-- The declarations whose names are not declared yet, and all declared names after them. -/
def keepFresh (location : String) :
    List String → List Declaration → Noted (List Declaration × List String)
  | declared, [] => return ([], declared)
  | declared, d :: rest => do
    if declared.contains d.name then
      Noted.note (declaredNote location d.name)
      keepFresh location declared rest
    else
      let (ds, declared) ← keepFresh location (d.name :: declared) rest
      return (d :: ds, declared)

def operationDeclarations (c : TypeContext) (op : PlannedOperation) (shape : RequestShape)
    (declared : List String) : Noted (List Declaration × List String) := do
  let data ← DataShape.of c op
  keepFresh op.location declared
    (requestDeclarations c op shape ++ dataDeclarations op data ++ [responseDeclaration c op data])

def operationsDeclarations (c : TypeContext) :
    List (PlannedOperation × RequestShape) → List String →
      Noted (List Declaration × List String)
  | [], declared => return ([], declared)
  | (op, shape) :: rest, declared => do
    let (own, declared) ← operationDeclarations c op shape declared
    let (more, declared) ← operationsDeclarations c rest declared
    return (own ++ more, declared)

end OpenApiClient
