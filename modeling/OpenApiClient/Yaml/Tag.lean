import OpenApiClient.Yaml.Scalar

/-!
# Tags and directives

How tags, tag directives and version directives are read. A tag is a handle with a suffix; a handle
stands for a text that the directives of the document fix, and two handles have a meaning without
any directive.
-/

namespace OpenApiClient.Yaml

/-- A tag as it is written: its handle, empty if the tag is given in full, and the rest. -/
structure TagText where
  handle : String
  suffix : String
  deriving DecidableEq, Repr

inductive Directive where
  | version (major minor : Nat)
  | tag (handle : String) (stem : String)
  deriving DecidableEq, Repr

/-- A character of a tag; some are allowed only where no flow collection can be meant. -/
def isTagChar (full : Bool) (c : Char) : Bool :=
  isNameChar c || ";/?:@&=+$.!~*'()".toList.contains c || (full && ",[]".toList.contains c)

/-- One byte written as a percent sign and two hexadecimal digits. -/
def percentByte? : List Char → Option (Nat × List Char)
  | '%' :: a :: b :: rest => (hexNumber? [a, b]).map fun n => (n, rest)
  | _ => none

/-- Reads the further bytes of a character whose first bytes give `n`. -/
def percentRest : Nat → Nat → List Char → Option (Nat × List Char)
  | 0, n, cs => some (n, cs)
  | count + 1, n, cs => do
    let (byte, rest) ← percentByte? cs
    if byte / 64 = 2 then percentRest count (n * 64 + byte % 64) rest else none

/-- Reads a character written as the bytes of its encoding. -/
def percentChar? (cs : List Char) : Option (Char × List Char) := do
  let (byte, rest) ← percentByte? cs
  let (n, rest) ←
    if byte < 0x80 then some (byte, rest)
    else if byte / 32 = 6 then percentRest 1 (byte % 32) rest
    else if byte / 16 = 14 then percentRest 2 (byte % 16) rest
    else if byte / 8 = 30 then percentRest 3 (byte % 8) rest
    else none
  return (Char.ofNat n, rest)

/-- Reads the characters of a tag as long as they last. -/
def tagChars (full : Bool) : Nat → List Char → Option (List Char × List Char)
  | 0, _ => none
  | fuel + 1, cs =>
    match cs with
    | [] => some ([], [])
    | c :: rest =>
      if c == '%' then do
        let (c, rest) ← percentChar? cs
        let (text, rest) ← tagChars full fuel rest
        return (c :: text, rest)
      else if isTagChar full c then do
        let (text, rest) ← tagChars full fuel rest
        return (c :: text, rest)
      else some ([], c :: rest)

/-- Reads a part of a tag that must not be empty. -/
def tagPart? (full : Bool) (cs : List Char) : Option (List Char × List Char) := do
  let (text, rest) ← tagChars full (cs.length + 1) cs
  if text.isEmpty then none else return (text, rest)

/-- Reads a handle: an exclamation mark, a name, and possibly a second mark. -/
def tagHandle? : List Char → Option (List Char × List Char)
  | '!' :: rest =>
    let name := rest.takeWhile isNameChar
    match rest.dropWhile isNameChar with
    | '!' :: after => some ('!' :: name ++ ['!'], after)
    | after => some ('!' :: name, after)
  | _ => none

/-- Reads a tag. The lone mark is a tag given in full. -/
def tagText? (cs : List Char) : Option (TagText × List Char) :=
  match cs with
  | '!' :: '<' :: rest => do
    let (suffix, rest) ← tagPart? true rest
    match rest with
    | '>' :: rest => return (⟨"", String.ofList suffix⟩, rest)
    | _ => none
  | _ => do
    let (handle, rest) ← tagHandle? cs
    if 2 ≤ handle.length && handle.getLast? == some '!' then
      let (suffix, rest) ← tagPart? false rest
      return (⟨String.ofList handle, String.ofList suffix⟩, rest)
    else
      let (more, rest) ← tagChars false (rest.length + 1) rest
      let suffix := handle.drop 1 ++ more
      if suffix.isEmpty then return (⟨"", "!"⟩, rest)
      else return (⟨"!", String.ofList suffix⟩, rest)

/-- Reads a tag at a cursor. What follows it must be a blank, a break or, within a flow collection,
a comma. -/
def readTag? (flow : Bool) (c : Cursor) : Option (TagText × Cursor) := do
  let (tag, rest) ← tagText? c.rest
  let c := c.skip (c.rest.length - rest.length)
  if (flow && c.at? ',') || endsWord rest then return (tag, c) else none

/-- A number of a version, of at most nine digits. -/
def versionNumber? (c : Cursor) : Option (Nat × Cursor) :=
  let (digits, c) := c.takeWhile Char.isDigit
  if digits.isEmpty || 9 < digits.length then none
  else some (digits.foldl (fun n d => n * 10 + (d.toNat - 48)) 0, c)

/-- Reads a directive, from in front of its percent sign, and the rest of its line. -/
def readDirective? (c : Cursor) : Option (Directive × Cursor) := do
  let (name, c) := (c.skip 1).takeWhile isNameChar
  if name.isEmpty || !endsWord c.rest then none
  else
    let word := String.ofList name
    if word = "YAML" then
      let (major, c) ← versionNumber? (c.skipWhile isBlank)
      if !c.at? '.' then none
      else
        let (minor, c) ← versionNumber? (c.skip 1)
        let c ← finishLine? c
        return (.version major minor, c)
    else if word = "TAG" then
      let c := c.skipWhile isBlank
      let (handle, rest) ← tagHandle? c.rest
      if handle.length ≠ 1 && handle.getLast? != some '!' then none
      else
        let c := c.skip (c.rest.length - rest.length)
        if !(c.rest.head?.any isBlank) then none
        else
          let c := c.skipWhile isBlank
          let (stem, rest) ← tagPart? true c.rest
          let c := c.skip (c.rest.length - rest.length)
          if !endsWord c.rest then none
          else
            let c ← finishLine? c
            return (.tag (String.ofList handle) (String.ofList stem), c)
    else none

/-- What the two predefined handles stand for. -/
def defaultHandles : List (String × String) :=
  [("!", "!"), ("!!", "tag:yaml.org,2002:")]

def TagText.resolve? (handles : List (String × String)) (t : TagText) : Option String :=
  if t.handle.isEmpty then some t.suffix
  else (handles.lookup t.handle).map fun stem => stem ++ t.suffix

end OpenApiClient.Yaml
