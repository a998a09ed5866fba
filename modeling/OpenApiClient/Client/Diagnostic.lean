import OpenApiClient.Text.Basic

/-!
# Diagnostics

Generation never fails: what cannot be expressed is replaced by something that can, and a diagnostic
says so. A computation that may have something to say is a `Noted` value, a value together with its
diagnostics in order. A `Pass` collects them, each once, and knows which type names the file at hand
declares already.
-/

namespace OpenApiClient

inductive Severity where
  /-- Something was replaced, and the user should look at it. -/
  | warning
  | info
  deriving DecidableEq, Repr

def Severity.name : Severity → String
  | warning => "warning"
  | info => "info"

inductive Stage where
  | group
  | naming
  | types
  deriving DecidableEq, Repr

def Stage.all : List Stage := [.group, .naming, .types]

def Stage.name : Stage → String
  | group => "group"
  | naming => "naming"
  | types => "types"

/-- Something to tell the user, perhaps with the place in the document that it is about. -/
structure Diagnostic where
  severity : Severity
  stage : Stage
  message : String
  location : Option String
  deriving DecidableEq, Repr

namespace Diagnostic

def isWarning (d : Diagnostic) : Bool :=
  d.severity == .warning

def text (d : Diagnostic) : String :=
  d.severity.name ++ " [" ++ d.stage.name ++ "]: " ++ d.message ++
    (match d.location with
      | some location => " (at " ++ location ++ ")"
      | none => "")

def typeWarning (location message : String) : Diagnostic :=
  ⟨.warning, .types, message, some location⟩

def typeInfo (location message : String) : Diagnostic :=
  ⟨.info, .types, message, some location⟩

end Diagnostic

/-- A value and the diagnostics that came up on the way to it, in order. -/
structure Noted (α : Type) where
  value : α
  notes : List Diagnostic
  deriving Repr

namespace Noted

instance : Monad Noted where
  pure a := ⟨a, []⟩
  bind x f := ⟨(f x.value).value, x.notes ++ (f x.value).notes⟩

def note (d : Diagnostic) : Noted Unit :=
  ⟨(), [d]⟩

/-- A diagnostic that is noted only if a condition holds. -/
def noteIf (condition : Bool) (d : Diagnostic) : Noted Unit :=
  if condition then note d else pure ()

/-- A computation for each item of a list, in order. -/
def each {α β : Type} (f : α → Noted β) : List α → Noted (List β)
  | [] => pure []
  | a :: rest => do
    let b ← f a
    return b :: (← each f rest)

end Noted

/-- The state of a generation pass: the type names that are declared in the file at hand, and the
diagnostics so far. -/
structure Pass where
  declared : List String := []
  diagnostics : List Diagnostic := []
  deriving DecidableEq, Repr

namespace Pass

def declare (name : String) (p : Pass) : Bool × Pass :=
  if p.declared.contains name then (false, p) else (true, { p with declared := name :: p.declared })

/-- The state when a new file is begun. -/
def beginFile (p : Pass) : Pass :=
  { p with declared := [] }

/-- Collects a diagnostic, unless the very same one is there already. -/
def record (d : Diagnostic) (p : Pass) : Pass :=
  if p.diagnostics.contains d then p else { p with diagnostics := p.diagnostics ++ [d] }

def recordAll (ds : List Diagnostic) (p : Pass) : Pass :=
  ds.foldl (fun p d => p.record d) p

def warnings (p : Pass) : List Diagnostic :=
  p.diagnostics.filter Diagnostic.isWarning

end Pass

end OpenApiClient
