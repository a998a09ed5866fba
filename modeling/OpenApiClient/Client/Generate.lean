import OpenApiClient.Client.ClientFunction
import OpenApiClient.Client.Declarations
import OpenApiClient.Client.RequestHelper
import OpenApiClient.Output.Tree

/-!
# Generated clients

A client consists of a file of types, the request helper, a module for each group and an index, in
this order; a configuration may leave out all but the modules. Where there is no file of types, each
module declares the types that it needs for itself, without exporting those of named schemas.
-/

namespace OpenApiClient

open Code (SourceFile Item)

/-- What the types of schemas depend on, for a document and a configuration. -/
def Config.typeContext (c : Config) (d : Document) : TypeContext :=
  ⟨d, c.typeNaming, c.includeComments⟩

/-! ## Types -/

def shapesOf (t : TypeContext) (operations : List PlannedOperation) :
    Noted (List (PlannedOperation × RequestShape)) :=
  Noted.each (fun op => do return (op, ← RequestShape.of t op)) operations

/-- The declarations of operations, each after its shape has been found. -/
def shapedDeclarations (t : TypeContext) :
    List PlannedOperation → List String → Noted (List Code.Declaration)
  | [], _ => return []
  | op :: rest, declared => do
    let shape ← RequestShape.of t op
    let (own, declared) ← operationDeclarations t op shape declared
    return own ++ (← shapedDeclarations t rest declared)

/-- The declarations of the file of types: those of all named schemas and of all operations. -/
def allDeclarations (t : TypeContext) (plans : List ModulePlan) :
    Noted (List Code.Declaration) := do
  let (schemas, declared) ← schemaDeclarations t [] t.document.schemas
  return schemas ++ (← shapedDeclarations t (plans.flatMap ModulePlan.operations) declared)

/-- The declarations of a module that has to declare all its types. -/
def ownDeclarations (t : TypeContext) (shapes : List (PlannedOperation × RequestShape)) :
    Noted (List Code.Declaration) := do
  let used := t.document.schemasUsedBy (shapes.map fun (op, _) => op.operation)
  let (schemas, declared) ← schemaDeclarations t [] used
  let (own, _) ← operationsDeclarations t shapes declared
  return schemas.map Code.Declaration.hidden ++ own

namespace Client

def typesPath : Language → String
  | .typeScript => "types.ts"
  | .javaScript => "types.d.ts"

/-- Whether there is a file of types. Without types in the code it is always there. -/
def hasTypesFile (c : Config) : Bool :=
  c.separateTypes || c.language == .javaScript

def typesUnit (c : Config) (d : Document) (plans : List ModulePlan) : Noted SourceUnit := do
  let declarations ← allDeclarations (c.typeContext d) plans
  return ⟨typesPath c.language,
    { header := c.header, items := declarations.map .declaration }, .typeScript⟩

/-! ## Modules -/

def typesModule (m : ModulePlan) : String :=
  m.place.toRoot ++ "types"

def typingOf (c : Config) (m : ModulePlan) : Typing :=
  match c.language with
  | .typeScript => .typed
  | .javaScript => .commented (typesModule m)

def mentionedTypes (shapes : List (PlannedOperation × RequestShape)) : List String :=
  shapes.flatMap fun (op, shape) =>
    (if shape.isEmpty then [] else [op.names.requestType]) ++ [op.names.responseType]

/-- The import of the types that a module mentions, in alphabetical order. -/
def typesImport (m : ModulePlan) (shapes : List (PlannedOperation × RequestShape)) :
    Code.Import :=
  ⟨typesModule m, (mentionedTypes shapes).eraseDups.mergeSort fun a b => decide (a ≤ b), true⟩

def functionItems (c : Config) (m : ModulePlan)
    (shapes : List (PlannedOperation × RequestShape)) : List Item :=
  shapes.map fun (op, shape) => .function (op.clientFunction c (typingOf c m) shape)

/-- A title, if comments are wanted and there is something under it. -/
def titleItem (c : Config) (isNeeded : Bool) (title : String) : List Item :=
  if c.includeComments && isNeeded then [.title title] else []

/-- The export of all functions of a module at once, if that is the style. -/
def defaultExport (c : Config) (m : ModulePlan) : List Code.Export :=
  match c.exportStyle with
  | .named => []
  | .default => [.defaultObject (m.operations.map PlannedOperation.functionName)]

def moduleSource (c : Config) (d : Document) (m : ModulePlan) : Noted SourceFile := do
  let t := c.typeContext d
  let shapes ← shapesOf t m.operations
  let empty : SourceFile := { exports := defaultExport c m }
  let start := empty.addImportLine c.importLine
  let functions := functionItems c m shapes
  match c.language, c.separateTypes with
  | .javaScript, _ => return { start with items := functions }
  | .typeScript, true =>
    return { start.addImport (typesImport m shapes) with items := functions }
  | .typeScript, false => do
    let declarations ← ownDeclarations t shapes
    return { start with
      items := titleItem c (!declarations.isEmpty) "types" ++ declarations.map .declaration ++
        titleItem c true "API functions" ++ functions }

def moduleUnit (c : Config) (d : Document) (m : ModulePlan) : Noted SourceUnit := do
  return ⟨m.place.file c.language.extension, ← moduleSource c d m, c.language.fileKind⟩

/-! ## The index -/

def importExtension : Language → Option String
  | .typeScript => none
  | .javaScript => some "js"

/-- How the index names the request helper. -/
def helperSpecifier (l : Language) : String :=
  match importExtension l with
  | none => "./utils/request"
  | some e => "./utils/request." ++ e

def aliasExports (l : Language) : List ModulePlan → NameSupply → List Code.Export
  | [], _ => []
  | m :: rest, supply =>
    let (claimed, supply) := supply.claim (m.place.stem ++ "_api") .camel
    .defaultAs (m.place.specifier (importExtension l)) (NameStyle.camel.format claimed.base) ::
      aliasExports l rest supply

def moduleExports (c : Config) (plans : List ModulePlan) : List Code.Export :=
  match c.exportStyle with
  | .named =>
    plans.map fun m => .everything (m.place.specifier (importExtension c.language))
  | .default => aliasExports c.language plans .empty

def indexUnit (c : Config) (plans : List ModulePlan) : SourceUnit :=
  let types : List Code.Export :=
    if c.language == .typeScript && c.separateTypes then [.everything "./types"] else []
  let helper : List Code.Export :=
    if c.generateUtils then [.everything (helperSpecifier c.language)] else []
  ⟨"index." ++ c.language.extension,
    { header := c.header, exports := types ++ helper ++ moduleExports c plans },
    c.language.fileKind⟩

/-! ## The whole client -/

def units (c : Config) (d : Document) (plans : List ModulePlan) : Noted (List SourceUnit) := do
  let types ← if hasTypesFile c then (do return [← typesUnit c d plans]) else pure []
  let helper := if c.generateUtils then [RequestHelper.unit c c.language] else []
  let modules ← Noted.each (moduleUnit c d) plans
  let index := if c.generateIndex then [indexUnit c plans] else []
  return types ++ helper ++ modules ++ index

/-- The document that is generated from: the selected operations, if there is a selection. -/
def selected (c : Config) (d : Document) : Document :=
  if c.outputTags.isEmpty && c.excludeTags.isEmpty then d
  else d.select ⟨c.outputTags, c.excludeTags⟩

def plans (c : Config) (d : Document) : Noted (List ModulePlan) :=
  Plan.modules c (d.groups.retain c.outputTags c.excludeTags)

def sources (c : Config) (d : Document) : Noted (List SourceUnit) := do
  let d := selected c d
  units c d (← plans c d)

end Client

/-- A generated client: its files and what there is to say about them. -/
structure Client where
  files : List GeneratedFile
  diagnostics : List Diagnostic
  deriving DecidableEq, Repr

namespace Client

def generate (c : Config) (d : Document) : Client :=
  let sources := Client.sources c d
  ⟨sources.value.map SourceUnit.file, (Pass.recordAll sources.notes {}).diagnostics⟩

def structureOf (client : Client) : List FileTree :=
  FileTree.ofFiles client.files

def warningCount (client : Client) : Nat :=
  (client.diagnostics.filter Diagnostic.isWarning).length

end Client

end OpenApiClient
