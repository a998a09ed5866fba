/-!
# A place in a YAML text

Reading YAML depends on where in its line a token stands, so the rest of the text is kept together
with the number of characters, lines and columns before it. This module also holds the character
classes of YAML.
-/

namespace OpenApiClient.Yaml

def isBlank (c : Char) : Bool :=
  c == ' ' || c == '\t'

def isBreak (c : Char) : Bool :=
  c == '\r' || c == '\n' || c == '\u0085' || c == '\u2028' || c == '\u2029'

/-- Whether the text ends or a blank or a line break comes next. -/
def endsWord : List Char → Bool
  | [] => true
  | c :: _ => isBlank c || isBreak c

/-- Whether the text ends or a line break comes next. -/
def endsLine : List Char → Bool
  | [] => true
  | c :: _ => isBreak c

/-- A character of names of anchors, tag handles and directives. -/
def isNameChar (c : Char) : Bool :=
  c.isAlphanum || c == '_' || c == '-'

def isAllowed (c : Char) : Bool :=
  let n := c.toNat
  n == 9 || n == 10 || n == 13 || (0x20 ≤ n && n ≤ 0x7E) || n == 0x85 ||
    (0xA0 ≤ n && n ≤ 0xD7FF) || (0xE000 ≤ n && n ≤ 0xFFFD) || 0x10000 ≤ n

/-- Whether three dashes or three points stand here as a word of their own. -/
def isDocumentMark : List Char → Bool
  | a :: b :: c :: rest => (a == '-' || a == '.') && a == b && b == c && endsWord rest
  | _ => false

/-- The line break in front of a text: what it stands for and how many characters it has. A return
and a feed together are one break; all breaks but the two separators stand for a line feed. -/
def break? : List Char → Option (List Char × Nat)
  | '\r' :: '\n' :: _ => some (['\n'], 2)
  | c :: _ =>
    if c == '\r' || c == '\n' || c == '\u0085' then some (['\n'], 1)
    else if isBreak c then some ([c], 1)
    else none
  | [] => none

structure Cursor where
  rest : List Char
  index : Nat
  line : Nat
  column : Nat

namespace Cursor

def start (cs : List Char) : Cursor := ⟨cs, 0, 0, 0⟩

/-- The cursor after some characters, none of which ends a line. -/
def skip (n : Nat) (c : Cursor) : Cursor :=
  ⟨c.rest.drop n, c.index + n, c.line, c.column + n⟩

/-- The characters of a class in front of the rest, and the cursor after them. -/
def takeWhile (p : Char → Bool) (c : Cursor) : List Char × Cursor :=
  let taken := c.rest.takeWhile p
  (taken, c.skip taken.length)

def skipWhile (p : Char → Bool) (c : Cursor) : Cursor :=
  (c.takeWhile p).2

/-- The line break in front of the rest, and the cursor after it. -/
def takeBreak? (c : Cursor) : Option (List Char × Cursor) :=
  (break? c.rest).map fun (text, size) =>
    (text, ⟨c.rest.drop size, c.index + size, c.line + 1, 0⟩)

/-- The cursor after the rest of the line up to its break. -/
def skipLine (c : Cursor) : Cursor :=
  c.skipWhile fun ch => !isBreak ch

def peek? (c : Cursor) : Option Char := c.rest.head?

def at? (ch : Char) (c : Cursor) : Bool := c.rest.head? == some ch

end Cursor

end OpenApiClient.Yaml
