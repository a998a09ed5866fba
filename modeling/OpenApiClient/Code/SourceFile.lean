import OpenApiClient.Code.Declaration

/-!
# Source files

A source file has a comment at its top, imports, items and exports. They are written in this order,
with an empty line between the parts and between the items.
-/

namespace OpenApiClient.Code

inductive ImportLine where
  | names (i : Import)
  /-- A line that is written as it is. -/
  | verbatim (line : String)
  deriving DecidableEq, Repr

def ImportLine.fragments : ImportLine → List Fragment
  | names i => i.fragments
  | verbatim line => [.line line]

/-- An item of the body of a source file. -/
inductive Item where
  | declaration (d : Declaration)
  | function (f : Function)
  /-- A title over the items that follow. -/
  | title (text : String)
  | code (fragments : List Fragment)
  deriving Repr

def Item.fragments : Item → List Fragment
  | declaration d => d.fragments
  | function f => f.fragments
  | title text => [.comment text]
  | code fragments => fragments

def Item.ofText (text : String) : Item :=
  .code ((Text.linesOf text).map .line)

structure SourceFile where
  header : List String := []
  imports : List ImportLine := []
  items : List Item := []
  exports : List Export := []
  deriving Repr

namespace SourceFile

/-- The file with one more import; an import of no names is left out. -/
def addImport (i : Import) (f : SourceFile) : SourceFile :=
  if i.names.isEmpty then f else { f with imports := f.imports ++ [.names i] }

/-- The file with one more line of imports; a blank line is left out. -/
def addImportLine (line : String) (f : SourceFile) : SourceFile :=
  if Text.isBlank line then f else { f with imports := f.imports ++ [.verbatim line] }

def isEmpty (f : SourceFile) : Bool :=
  f.header.isEmpty && f.imports.isEmpty && f.items.isEmpty && f.exports.isEmpty

/-- The parts of a file between which an empty line stands. A part may have no text. -/
def parts (f : SourceFile) : List (List Fragment) :=
  (if f.header.isEmpty then [] else [f.header.map .comment]) ++
    (if f.imports.isEmpty then [] else [f.imports.flatMap ImportLine.fragments]) ++
    f.items.map Item.fragments ++
    (if f.exports.isEmpty then [] else [f.exports.flatMap Export.fragments])

/-- Parts with an empty line between each two. -/
def separate : List (List Fragment) → List Fragment
  | [] => []
  | [part] => part
  | part :: rest => part ++ .blank :: separate rest

def text (unit : List Char) (f : SourceFile) : String :=
  render unit (separate f.parts)

end SourceFile

end OpenApiClient.Code
