import OpenApiClient.Toml.Statement

/-!
# TOML documents

The assignments of a document before its first header belong to the root table, those after a header
to the table that it opens. A header may open each table once, and tables that are complete may not
be opened at all.
-/

namespace OpenApiClient.Toml

/-- The assignments under a header. The root has no path. -/
structure Section where
  path : List Key
  /-- Whether the header opens a new item of a list of tables. -/
  isItem : Bool
  spot : Spot
  assignments : List Assignment

/-- The entries with a section in them, given how a table is filled; none if the section cannot be
opened. -/
def openSection (isItem : Bool) (spot : Spot) (fill : Entries → Option Entries) :
    List Key → Entries → Option Entries
  | [], entries => fill entries
  | [k], entries =>
    match lookup? k.name entries with
    | none =>
      (fill []).map fun inner =>
        let table : Node := (spot, .table .headed inner)
        entries ++ [(k, if isItem then (spot, .list true [table]) else table)]
    | some (_, .table .implied inner) =>
      if isItem then none
      else (fill inner).map fun inner => replace k.name (.table .headed inner) entries
    | some (_, .list true items) =>
      if isItem then
        (fill []).map fun inner =>
          replace k.name (.list true (items ++ [(spot, .table .headed inner)])) entries
      else none
    | some _ => none
  | k :: path, entries =>
    match lookup? k.name entries with
    | none =>
      (openSection isItem spot fill path []).map fun inner =>
        entries ++ [(k, k.spot, .table .implied inner)]
    | some (_, .table origin inner) =>
      if origin = .inline then none
      else
        (openSection isItem spot fill path inner).map fun inner =>
          replace k.name (.table origin inner) entries
    | some (_, .list true items) =>
      match items.getLast? with
      | some (last, .table origin inner) =>
        (openSection isItem spot fill path inner).map fun inner =>
          replace k.name (.list true (items.dropLast ++ [(last, .table origin inner)])) entries
      | _ => none
    | some _ => none

def assemble (sections : List Section) : Option Entries :=
  sections.foldlM
    (fun entries s => openSection s.isItem s.spot (assignAll s.assignments) s.path entries) []

/-! ## Reading -/

/-- Reads what may follow a statement on its line, with the end of the line. -/
def endLine : Reader Unit := do
  skipBlanks
  skipComment
  match ← get with
  | [] => pure ()
  | cs => do set (← StateT.lift (lineBreak? cs))

/-- Reads the statements of a section up to the next header. -/
def assignments : Nat → Reader (List Assignment)
  | 0 => StateT.lift none
  | fuel + 1 => do
    skipLines (← get).length
    match (← get).head? with
    | none | some '[' => return []
    | some _ =>
      let a ← assignment ((← get).length + 1)
      endLine
      return a :: (← assignments fuel)

def header : Reader (Bool × List Key) := do
  demand ['[']
  let isItem ← accept ['[']
  let path ← dottedKey ((← get).length + 1)
  demand (if isItem then [']', ']'] else [']'])
  return (isItem, path)

def sections : Nat → Reader (List Section)
  | 0 => StateT.lift none
  | fuel + 1 => do
    if (← get).isEmpty then return []
    else
      let (spot, isItem, path) ← spotted header
      endLine
      let body ← assignments ((← get).length + 1)
      return ⟨path, isItem, spot, body⟩ :: (← sections fuel)

/-- Reads a whole text. -/
def document : Reader (List Section) := do
  let size := (← get).length + 1
  let _ ← accept ['\ufeff']
  let root ← assignments size
  return ⟨[], false, ⟨0, 0⟩, root⟩ :: (← sections size)

/-- The root table of a text, if it is TOML. -/
def read? (cs : List Char) : Option Entries := do
  let (sections, _) ← document cs
  assemble sections

end OpenApiClient.Toml
