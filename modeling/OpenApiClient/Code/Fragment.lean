import OpenApiClient.Text.Blank

/-!
# Code fragments

Generated code is put together of fragments that know nothing of the column they stand in: lines,
comments and blocks. `Fragment.render` writes a fragment at a depth: every line that is not empty
begins with one indent unit for each level, and empty lines stay empty. Only raw text is written
exactly as it is.
-/

namespace OpenApiClient.Code

inductive Fragment where
  /-- A text on lines of its own. -/
  | line (text : String)
  /-- An empty line. -/
  | blank
  /-- A text without indentation and without an end of line. -/
  | raw (text : String)
  /-- A line, a body one level deeper, and perhaps a line that closes it. -/
  | block (header : String) (body : List Fragment) (close : Option String)
  /-- A body one level deeper. -/
  | indent (body : List Fragment)
  /-- Fragments one after another. -/
  | sequence (parts : List Fragment)
  /-- A documentation comment: on one line, or starred if its text has several. -/
  | doc (text : String)
  /-- A comment for each line of a text. -/
  | comment (text : String)
  deriving Repr, Inhabited

/-- The indent unit of generated files. -/
def standardUnit : List Char := [' ', ' ']

def tabUnit : List Char := ['\t']

/-- An indent unit of blanks; there are at most eight. -/
def blankUnit (width : Nat) : List Char :=
  List.replicate (min width 8) ' '

/-- What stands in front of a line at a depth. -/
def padding (unit : List Char) (depth : Nat) : List Char :=
  (List.replicate depth unit).flatten

/-- A line with its padding and its end; an empty line has no padding. -/
def padLine (pad line : List Char) : List Char :=
  if line.isEmpty then ['\n'] else pad ++ line ++ ['\n']

/-- A text written line by line with the same padding. -/
def writeLines (pad text : List Char) : List Char :=
  (Text.splitOn '\n' text).flatMap (padLine pad)

/-- A text that cannot close a comment. -/
def guardComment (text : List Char) : List Char :=
  Text.replace '*' ['/'] ['*', '\\', '/'] text

def docLine (text : List Char) : List Char :=
  "/** ".toList ++ guardComment text ++ " */".toList

def starredLine (line : List Char) : List Char :=
  if line.isEmpty then [' ', '*'] else " * ".toList ++ guardComment line

def writeDoc (pad text : List Char) : List Char :=
  let lines := (Text.lines text).map Text.trimEnd
  if lines.length ≤ 1 then writeLines pad (docLine (Text.trim text))
  else
    writeLines pad "/**".toList ++ lines.flatMap (fun line => writeLines pad (starredLine line)) ++
      writeLines pad " */".toList

def writeComment (pad text : List Char) : List Char :=
  (Text.lines text).flatMap fun line => writeLines pad ("// ".toList ++ line)

mutual

def Fragment.write (unit : List Char) (depth : Nat) : Fragment → List Char
  | .line text => writeLines (padding unit depth) text.toList
  | .blank => ['\n']
  | .raw text => text.toList
  | .block header body none =>
    writeLines (padding unit depth) header.toList ++ writeAll unit (depth + 1) body
  | .block header body (some close) =>
    writeLines (padding unit depth) header.toList ++ writeAll unit (depth + 1) body ++
      writeLines (padding unit depth) close.toList
  | .indent body => writeAll unit (depth + 1) body
  | .sequence parts => writeAll unit depth parts
  | .doc text => writeDoc (padding unit depth) text.toList
  | .comment text => writeComment (padding unit depth) text.toList
termination_by structural f => f

def writeAll (unit : List Char) (depth : Nat) : List Fragment → List Char
  | [] => []
  | f :: rest => f.write unit depth ++ writeAll unit depth rest
termination_by structural fs => fs

end

def render (unit : List Char) (fragments : List Fragment) : String :=
  String.ofList (writeAll unit 0 fragments)

theorem writeAll_append (unit : List Char) (depth : Nat) (fs gs : List Fragment) :
    writeAll unit depth (fs ++ gs) = writeAll unit depth fs ++ writeAll unit depth gs := by
  induction fs with
  | nil => simp [writeAll]
  | cons f fs ih => simp [writeAll, ih]

end OpenApiClient.Code
