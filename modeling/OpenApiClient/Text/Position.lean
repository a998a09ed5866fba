import OpenApiClient.Text.Basic

/-!
# Positions in a text

A reader that fails knows how many bytes it left unread. From that number and the whole text follow
the byte offset of the failure, its line and its column, and back from a line and a column the
range that a message points at. Lines count from one; a column is the number of bytes before it in
its line.
-/

namespace OpenApiClient.Text

/-- A line and the number of bytes before a place in it. -/
structure Position where
  line : Nat
  column : Nat
  deriving DecidableEq, Repr

/-- The position that lies a number of bytes after another one, along a text. -/
def advance (p : Position) : List Char → Nat → Position
  | [], _ => p
  | c :: rest, bytes =>
    if bytes = 0 then p
    else if c = '\n' then advance ⟨p.line + 1, 0⟩ rest (bytes - 1)
    else if c.utf8Size ≤ bytes then
      advance ⟨p.line, p.column + c.utf8Size⟩ rest (bytes - c.utf8Size)
    else ⟨p.line, p.column + bytes⟩

def positionAt (cs : List Char) (offset : Nat) : Position :=
  advance ⟨1, 0⟩ cs offset

structure Span where
  offset : Nat
  length : Nat
  deriving DecidableEq, Repr

def fullLines : List Char → List (List Char)
  | [] => []
  | c :: rest =>
    if c = '\n' then [c] :: fullLines rest
    else
      match fullLines rest with
      | [] => [[c]]
      | line :: lines => (c :: line) :: lines

/-- The one-byte span at a line and a column that counts from one. There is none without a line,
and none beyond the end of the text. -/
def spanAt (cs : List Char) (line column : Nat) : Option Span :=
  if line = 0 then none
  else
    let before := byteLength ((fullLines cs).take (line - 1)).flatten
    some ⟨min (before + (column - 1)) (byteLength cs), 1⟩

end OpenApiClient.Text
