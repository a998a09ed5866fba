import OpenApiClient.Yaml.Tag

/-!
# Tokens of a YAML text

A YAML text is cut into tokens, with the structure that indentation expresses made explicit: a block
collection is opened and closed by tokens of its own. The difficulty is that a key is known as a key
only when its colon is met. So a scalar, an alias or a flow collection that could be a key is
remembered together with the number of its first token, and when a colon follows on the same line
and within 1024 characters, the tokens that announce a key are put in front of that token.
-/

namespace OpenApiClient.Yaml

inductive Token where
  | streamEnd
  | directive (d : Directive)
  | documentStart
  | documentEnd
  | blockSequenceStart
  | blockMappingStart
  | blockEnd
  | flowSequenceStart
  | flowSequenceEnd
  | flowMappingStart
  | flowMappingEnd
  | blockEntry
  | flowEntry
  | key
  | value
  | alias (name : String)
  | anchor (name : String)
  | tag (text : TagText)
  | scalar (text : String) (plain : Bool)
  deriving DecidableEq, Repr

/-- A place where a key may have begun. A required one must turn out to be a key. -/
structure KeyPlace where
  required : Bool
  token : Nat
  index : Nat
  line : Nat
  column : Nat

/-- The state of the cutting: where it stands, the collections that are open, and what has been
found. `keyPlace` belongs to the innermost collection, `outerPlaces` to those around it, nearest
first; `indents` are the indentations of the block collections around the innermost one. -/
structure Scan where
  cursor : Cursor
  flow : Nat
  indent : Int
  indents : List Int
  keyAllowed : Bool
  keyPlace : Option KeyPlace
  outerPlaces : List (Option KeyPlace)
  tokens : Array Token
  finished : Bool

namespace Scan

/-- The state in front of a text. -/
def start (cs : List Char) : Scan :=
  ⟨Cursor.start cs, 0, -1, [], true, none, [], #[], false⟩

def emit (t : Token) (s : Scan) : Scan :=
  { s with tokens := s.tokens.push t }

/-- Puts a token in front of an earlier one. -/
def insertAt (i : Nat) (t : Token) (s : Scan) : Scan :=
  { s with tokens := s.tokens.insertIdxIfInBounds i t }

/-- Closes the block collections that are indented deeper than a column. -/
def unroll (column : Int) (s : Scan) : Scan :=
  if 0 < s.flow then s
  else go s.indents s
where
  /-- Closes collections while the innermost is too deep. -/
  go : List Int → Scan → Scan
    | [], s => s
    | outer :: rest, s =>
      if column < s.indent then
        go rest { s.emit .blockEnd with indent := outer, indents := rest }
      else s

/-- Opens a block collection at a column, unless it is open already. The token is put in front of
the token of the given number, or at the end. -/
def roll (column : Nat) (place : Option Nat) (t : Token) (s : Scan) : Scan :=
  if 0 < s.flow || (column : Int) ≤ s.indent then s
  else
    let s := { s with indent := column, indents := s.indent :: s.indents }
    match place with
    | some i => s.insertAt i t
    | none => s.emit t

/-- Forgets the place of a key in the innermost collection, which must not be required. -/
def dropPlace (s : Scan) : Option Scan :=
  if s.keyPlace.any KeyPlace.required then none else some { s with keyPlace := none }

/-- Remembers the present place as one of a key, if a key may begin here. -/
def savePlace (s : Scan) : Option Scan :=
  if s.keyAllowed then do
    let s ← s.dropPlace
    let c := s.cursor
    let required := s.flow = 0 && s.indent = (c.column : Int)
    return { s with keyPlace := some ⟨required, s.tokens.size, c.index, c.line, c.column⟩ }
  else some s

/-- The place of a key that a colon here belongs to. None if the text is wrong because a required
key has no colon. -/
def currentPlace (s : Scan) : Option (Option KeyPlace) :=
  match s.keyPlace with
  | none => some none
  | some p =>
    if p.line < s.cursor.line || p.index + 1024 < s.cursor.index then
      if p.required then none else some none
    else some (some p)

/-! ## The tokens one by one -/

/-- Skips blanks, comments and line breaks. Tabs separate tokens only where no key may begin. -/
def skipToToken : Nat → Scan → Scan
  | 0, s => s
  | fuel + 1, s =>
    let c := s.cursor
    let c := if c.index = 0 && c.at? '\ufeff' then c.skip 1 else c
    let tabs := 0 < s.flow || !s.keyAllowed
    let c := c.skipWhile fun ch => ch == ' ' || (tabs && ch == '\t')
    let c := if c.at? '#' then c.skipLine else c
    match c.takeBreak? with
    | none => { s with cursor := c }
    | some (_, c) =>
      skipToToken fuel { s with cursor := c, keyAllowed := s.keyAllowed || s.flow = 0 }

def takeStreamEnd (s : Scan) : Option Scan := do
  let s ← (s.unroll (-1)).dropPlace
  return { s.emit .streamEnd with keyAllowed := false, finished := true }

def takeDirective (s : Scan) : Option Scan := do
  let s ← (s.unroll (-1)).dropPlace
  let (d, c) ← readDirective? s.cursor
  return { s.emit (.directive d) with cursor := c, keyAllowed := false }

def takeDocumentMark (t : Token) (s : Scan) : Option Scan := do
  let s ← (s.unroll (-1)).dropPlace
  return { s.emit t with cursor := s.cursor.skip 3, keyAllowed := false }

def takeFlowStart (t : Token) (s : Scan) : Option Scan := do
  let s ← s.savePlace
  return { s.emit t with
    cursor := s.cursor.skip 1, keyAllowed := true, flow := s.flow + 1,
    keyPlace := none, outerPlaces := s.keyPlace :: s.outerPlaces }

def takeFlowEnd (t : Token) (s : Scan) : Option Scan := do
  let s ← s.dropPlace
  let s := { s.emit t with cursor := s.cursor.skip 1, keyAllowed := false }
  match s.outerPlaces with
  | [] => return s
  | place :: outer => return { s with flow := s.flow - 1, keyPlace := place, outerPlaces := outer }

def takeFlowEntry (s : Scan) : Option Scan := do
  let s ← s.dropPlace
  return { s.emit .flowEntry with cursor := s.cursor.skip 1, keyAllowed := true }

/-- Opens a block collection at the present column, where one may begin. -/
def openBlock (t : Token) (s : Scan) : Option Scan :=
  if 0 < s.flow then some s
  else if s.keyAllowed then some (s.roll s.cursor.column none t)
  else none

/-- The dash in front of an entry of a block sequence. -/
def takeBlockEntry (s : Scan) : Option Scan := do
  let s ← s.openBlock .blockSequenceStart
  let s ← s.dropPlace
  return { s.emit .blockEntry with cursor := s.cursor.skip 1, keyAllowed := true }

/-- The question mark in front of a key. -/
def takeKey (s : Scan) : Option Scan := do
  let s ← s.openBlock .blockMappingStart
  let s ← s.dropPlace
  return { s.emit .key with cursor := s.cursor.skip 1, keyAllowed := s.flow = 0 }

def takeValue (s : Scan) : Option Scan := do
  match ← s.currentPlace with
  | some p =>
    let s := (s.insertAt p.token .key).roll p.column (some p.token) .blockMappingStart
    return { s.emit .value with cursor := s.cursor.skip 1, keyPlace := none, keyAllowed := false }
  | none =>
    let s ← s.openBlock .blockMappingStart
    return { s.emit .value with
      cursor := s.cursor.skip 1, keyPlace := none, keyAllowed := s.flow = 0 }

/-- The name of an anchor or an alias, which must be followed by a word's end or a mark. -/
def takeName (t : String → Token) (s : Scan) : Option Scan := do
  let s ← s.savePlace
  let (name, c) := (s.cursor.skip 1).takeWhile isNameChar
  if name.isEmpty || !(endsWord c.rest || c.rest.head?.any "?:,]\x7d%@`".toList.contains) then none
  else return { s.emit (t (String.ofList name)) with cursor := c, keyAllowed := false }

def takeTag (s : Scan) : Option Scan := do
  let s ← s.savePlace
  let (tag, c) ← readTag? (0 < s.flow) s.cursor
  return { s.emit (.tag tag) with cursor := c, keyAllowed := false }

def takeBlock (fuel : Nat) (literal : Bool) (s : Scan) : Option Scan := do
  let s ← s.dropPlace
  let (text, c) ← readBlock literal s.indent fuel (s.cursor.skip 1)
  return { s.emit (.scalar (String.ofList text) false) with cursor := c, keyAllowed := true }

def takeQuoted (fuel : Nat) (single : Bool) (s : Scan) : Option Scan := do
  let s ← s.savePlace
  let (text, c) ← readQuoted single fuel (s.cursor.skip 1)
  return { s.emit (.scalar (String.ofList text) false) with cursor := c, keyAllowed := false }

/-- A plain scalar. After one that ends at a line break a key may begin. -/
def takePlain (fuel : Nat) (s : Scan) : Option Scan := do
  let s ← s.savePlace
  let (text, c, leaves) ← readPlain (0 < s.flow) (s.indent + 1) fuel (.blanks []) s.cursor
  return { s.emit (.scalar (String.ofList text) true) with cursor := c, keyAllowed := leaves }

def plainBegins (flow : Bool) : List Char → Bool
  | [] => false
  | c :: rest =>
    !(isBlank c || isBreak c || "-?:,[]\x7b\x7d#&*!|>'\"%@`".toList.contains c) ||
      (c == '-' && !rest.head?.any isBlank) ||
      (!flow && (c == '?' || c == ':') && !endsWord rest)

/-- Reads the next token. The loops inside it take a unit of fuel for each character. -/
def step (fuel : Nat) (s : Scan) : Option Scan :=
  let s := skipToToken fuel s
  let s := s.unroll s.cursor.column
  let flow := 0 < s.flow
  match s.cursor.rest with
  | [] => s.takeStreamEnd
  | c :: rest =>
    let first := s.cursor.column = 0
    let word := endsWord rest
    if first && c == '%' then s.takeDirective
    else if first && isDocumentMark (c :: rest) then
      s.takeDocumentMark (if c == '-' then .documentStart else .documentEnd)
    else if c == '[' then s.takeFlowStart .flowSequenceStart
    else if c == '\x7b' then s.takeFlowStart .flowMappingStart
    else if c == ']' then s.takeFlowEnd .flowSequenceEnd
    else if c == '\x7d' then s.takeFlowEnd .flowMappingEnd
    else if c == ',' then s.takeFlowEntry
    else if c == '-' && word then s.takeBlockEntry
    else if c == '?' && (flow || word) then s.takeKey
    else if c == ':' && (flow || word) then s.takeValue
    else if c == '*' then s.takeName .alias
    else if c == '&' then s.takeName .anchor
    else if c == '!' then s.takeTag
    else if c == '|' && !flow then s.takeBlock fuel true
    else if c == '>' && !flow then s.takeBlock fuel false
    else if c == '\'' then s.takeQuoted fuel true
    else if c == '"' then s.takeQuoted fuel false
    else if plainBegins flow (c :: rest) then s.takePlain fuel
    else none

/-- Reads tokens up to the end of the text. -/
def run : Nat → Scan → Option Scan
  | 0, _ => none
  | fuel + 1, s => if s.finished then some s else step fuel s >>= run fuel

end Scan

/-- The tokens of a text, none if it is no YAML. Each token but the last takes a character, so the
fuel left for a token exceeds the length of the text after it. -/
def tokens? (cs : List Char) : Option (List Token) :=
  if cs.all isAllowed then
    (Scan.run (cs.length + 4) (Scan.start cs)).map fun s => s.tokens.toList
  else none

end OpenApiClient.Yaml
