import OpenApiClient.Client.Diagnostic
import OpenApiClient.Client.Groups
import OpenApiClient.Client.ModulePath
import OpenApiClient.Client.NameSupply
import OpenApiClient.Client.Names

/-!
# Plans of modules

Before anything is generated, every group gets a place and every operation its names, both unique in
the whole client. A name that had to be changed is reported.
-/

namespace OpenApiClient

/-- An operation with its names. -/
structure PlannedOperation where
  endpoint : Endpoint
  names : Names
  deriving DecidableEq, Repr

namespace PlannedOperation

def location (p : PlannedOperation) : String := p.endpoint.location

def operation (p : PlannedOperation) : Operation := p.endpoint.operation

end PlannedOperation

/-- A module: the tag it is made for, its place and its operations. -/
structure ModulePlan where
  tag : String
  place : ModulePath
  operations : List PlannedOperation
  deriving DecidableEq, Repr

namespace Plan

def reservedStems : List String := ["index", "types"]

/-- What must differ between the stems of two modules. -/
def stemKey (m : ModulePath) : String :=
  Text.lowercaseString m.stem

/-- The report that a tag did not get its own place. -/
def movedNote (tag : String) (own actual : ModulePath) : Diagnostic :=
  ⟨.warning, .group,
    "tag `" ++ tag ++ "` maps to an existing module `" ++ own.stem ++ "`, using `" ++
      actual.stem ++ "`", none⟩

def placeOf (tag : String) (taken : List String) : Noted (ModulePath × List String) :=
  let own := ModulePath.ofTag tag
  if taken.contains (stemKey own) then do
    let actual := own.numbered (freeNumber taken fun n => stemKey (own.numbered n))
    Noted.note (movedNote tag own actual)
    return (actual, stemKey actual :: taken)
  else return (own, stemKey own :: taken)

/-- The report that a function got another name. -/
def renamedNote (e : Endpoint) (wanted actual : String) : Diagnostic :=
  ⟨.warning, .naming,
    "function name `" ++ wanted ++ "` is already used, renamed to `" ++ actual ++ "`",
    some e.location⟩

def nameOperation (functions types : NameStyle) (e : Endpoint) (supply : NameSupply) :
    Noted (PlannedOperation × NameSupply) := do
  let base := nameBase e.method e.path
  let (claimed, supply) := supply.claim base functions
  let names := Names.ofBase claimed.base functions types
  Noted.noteIf claimed.renamed (renamedNote e (functions.format base) names.function)
  return (⟨e, names⟩, supply)

def nameOperations (functions types : NameStyle) :
    List Endpoint → NameSupply → Noted (List PlannedOperation × NameSupply)
  | [], supply => return ([], supply)
  | e :: rest, supply => do
    let (op, supply) ← nameOperation functions types e supply
    let (ops, supply) ← nameOperations functions types rest supply
    return (op :: ops, supply)

/-- The modules of groups, given the stems and the names that are in use. -/
def modulesFrom (functions types : NameStyle) :
    Groups → List String → NameSupply → Noted (List ModulePlan)
  | [], _, _ => return []
  | (tag, endpoints) :: rest, taken, supply => do
    let (place, taken) ← placeOf tag taken
    let (operations, supply) ← nameOperations functions types endpoints supply
    return ⟨tag, place, operations⟩ :: (← modulesFrom functions types rest taken supply)

def modules (c : Config) (groups : Groups) : Noted (List ModulePlan) :=
  modulesFrom c.functionNaming c.typeNaming groups reservedStems NameSupply.empty

end Plan

end OpenApiClient
