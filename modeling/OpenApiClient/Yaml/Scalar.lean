import OpenApiClient.Yaml.Cursor

/-!
# Scalars of a YAML text

How the three kinds of scalars are read: quoted ones, plain ones and block ones. In quoted and plain
scalars the blanks around a line break are dropped, a single break becomes a space, and of several
breaks the first is dropped.
-/

namespace OpenApiClient.Yaml

/-- Blanks and breaks that were read and whose place in the scalar is not decided yet. -/
inductive Gap where
  /-- Blanks within a line. -/
  | blanks (text : List Char)
  /-- A first break, the breaks after it. An escaped break stands for nothing, not for a space. -/
  | breaks (first more : List Char)

/-- The text that a gap stands for when more characters follow it. -/
def Gap.text : Gap → List Char
  | blanks text => text
  | breaks first more =>
    if first = ['\n'] then (if more.isEmpty then [' '] else more) else first ++ more

/-- A gap with one more blank: at the beginning of a line it is dropped. -/
def Gap.addBlank (c : Char) : Gap → Gap
  | blanks text => blanks (text ++ [c])
  | breaks first more => breaks first more

/-- A gap with one more break: the blanks before the first one are dropped. -/
def Gap.addBreak (text : List Char) : Gap → Gap
  | blanks _ => breaks text []
  | breaks first more => breaks first (more ++ text)

/-- Reads blanks and breaks. With `indent` a tab left of that column in a later line is refused. -/
def readGap (indent : Int) : Nat → Gap → Cursor → Option (Gap × Cursor)
  | 0, _, _ => none
  | fuel + 1, gap, c =>
    match c.rest with
    | [] => some (gap, c)
    | ch :: _ =>
      if isBlank ch then
        match gap with
        | .breaks _ _ =>
          if ch == '\t' && (c.column : Int) < indent then none
          else readGap indent fuel (gap.addBlank ch) (c.skip 1)
        | .blanks _ => readGap indent fuel (gap.addBlank ch) (c.skip 1)
      else
        match c.takeBreak? with
        | some (text, after) => readGap indent fuel (gap.addBreak text) after
        | none => some (gap, c)

/-! ## Quoted scalars -/

def hexValue? (c : Char) : Option Nat :=
  if c.isDigit then some (c.toNat - 48)
  else if 'a' ≤ c ∧ c ≤ 'f' then some (c.toNat - 87)
  else if 'A' ≤ c ∧ c ≤ 'F' then some (c.toNat - 55)
  else none

def hexNumber? (digits : List Char) : Option Nat :=
  digits.foldlM (fun n c => (hexValue? c).map fun d => n * 16 + d) 0

def simpleEscape? (c : Char) : Option Char :=
  match c with
  | '0' => some '\x00'
  | 'a' => some '\x07'
  | 'b' => some '\x08'
  | 't' | '\t' => some '\t'
  | 'n' => some '\n'
  | 'v' => some '\x0b'
  | 'f' => some '\x0c'
  | 'r' => some '\r'
  | 'e' => some '\x1b'
  | ' ' => some ' '
  | '"' => some '"'
  | '/' => some '/'
  | '\\' => some '\\'
  | 'N' => some '\u0085'
  | '_' => some '\u00a0'
  | 'L' => some '\u2028'
  | 'P' => some '\u2029'
  | _ => none

/-- How many hexadecimal digits follow the letter of an escape. -/
def escapeDigits? (c : Char) : Option Nat :=
  match c with
  | 'x' => some 2
  | 'u' => some 4
  | 'U' => some 8
  | _ => none

def readEscape? (c : Cursor) : Option (Char × Cursor) := do
  let letter ← c.peek?
  match escapeDigits? letter with
  | none => return (← simpleEscape? letter, c.skip 1)
  | some count =>
    let digits := (c.rest.drop 1).take count
    if digits.length ≠ count then none
    else
      let n ← hexNumber? digits
      if h : n.isValidChar then return (Char.ofNatAux n h, c.skip (1 + count)) else none

/-- Reads a quoted scalar, from after its opening quote up to after its closing one. -/
def readQuoted (single : Bool) : Nat → Cursor → Option (List Char × Cursor)
  | 0, _ => none
  | fuel + 1, c =>
    match c.rest with
    | [] => none
    | ch :: after =>
      if c.column == 0 && isDocumentMark c.rest then none
      else if isBlank ch || isBreak ch then do
        let (gap, c) ← readGap (-1) (fuel + 1) (.blanks []) c
        more gap.text (readQuoted single fuel c)
      else if single then
        if ch == '\'' then
          if after.head? == some '\'' then more ['\''] (readQuoted single fuel (c.skip 2))
          else some ([], c.skip 1)
        else more [ch] (readQuoted single fuel (c.skip 1))
      else if ch == '"' then some ([], c.skip 1)
      else if ch == '\\' then
        match (c.skip 1).takeBreak? with
        | some (_, next) => do
          let (gap, next) ← readGap (-1) (fuel + 1) (.breaks [] []) next
          more gap.text (readQuoted single fuel next)
        | none => do
          let (ch, next) ← readEscape? (c.skip 1)
          more [ch] (readQuoted single fuel next)
      else more [ch] (readQuoted single fuel (c.skip 1))
where
  /-- Puts characters in front of what is read after them. -/
  more (cs : List Char) (read : Option (List Char × Cursor)) : Option (List Char × Cursor) :=
    read.map fun (rest, c) => (cs ++ rest, c)

/-! ## Plain scalars -/

def isFlowMark (c : Char) : Bool :=
  c == ',' || c == '[' || c == ']' || c == '\x7b' || c == '\x7d'

/-- Takes the characters of a plain scalar up to a blank, a break or a mark that ends it. None if a
colon stands in a flow collection where it cannot. -/
def plainRun (flow : Bool) : List Char → Option (List Char)
  | [] => some []
  | c :: rest =>
    if isBlank c || isBreak c then some []
    else if flow && c == ':' && rest.head?.any (fun d => isFlowMark d || d == '?') then none
    else if (c == ':' && endsWord rest) || (flow && isFlowMark c) then some []
    else (plainRun flow rest).map (c :: ·)

/-- Reads the further runs of a plain scalar. Gives the characters, the cursor after them and
whether the scalar was left at a line break. -/
def readPlain (flow : Bool) (indent : Int) : Nat → Gap → Cursor →
    Option (List Char × Cursor × Bool)
  | 0, _, _ => none
  | fuel + 1, gap, c =>
    let broken := match gap with
      | .breaks _ _ => true
      | .blanks _ => false
    if (c.column == 0 && isDocumentMark c.rest) || c.at? '#' then some ([], c, broken)
    else do
      let run ← plainRun flow c.rest
      let next := c.skip run.length
      let pending := if run.isEmpty then gap else .blanks []
      let text := if run.isEmpty then [] else gap.text ++ run
      match next.rest with
      | [] => return (text, next, broken && run.isEmpty)
      | ch :: _ =>
        if isBlank ch || isBreak ch then
          let (pending, next) ← readGap indent (fuel + 1) pending next
          let leaves := match pending with
            | .breaks _ _ => true
            | .blanks _ => false
          if !flow && (next.column : Int) < indent then return (text, next, leaves)
          else
            let (rest, next, leaves) ← readPlain flow indent fuel pending next
            return (text ++ rest, next, leaves)
        else return (text, next, broken && run.isEmpty)

/-! ## Block scalars -/

/-- What happens to the line breaks at the end of a block scalar. -/
inductive Chomping where
  | strip
  | clip
  | keep
  deriving DecidableEq

/-- Reads empty lines and the indentation of the next line. An indentation of zero is one that is
not known yet. Gives the breaks, the deepest column seen and the cursor. -/
def readBlockBreaks (indent : Nat) : Nat → Nat → List Char → Cursor →
    Option (List Char × Nat × Cursor)
  | 0, _, _, _ => none
  | fuel + 1, deepest, breaks, c =>
    let spaces := (c.rest.takeWhile (· == ' ')).length
    let c := c.skip (if indent = 0 then spaces else min spaces (indent - c.column))
    let deepest := max deepest c.column
    if (indent = 0 || c.column < indent) && c.at? '\t' then none
    else
      match c.takeBreak? with
      | none => some (breaks, deepest, c)
      | some (text, next) => readBlockBreaks indent fuel deepest (breaks ++ text) next

/-- Reads the lines of a block scalar. `first` is the break before the line, `more` the empty lines
after it, `blankBefore` whether the last line began with a blank. -/
def readBlockLines (literal : Bool) (indent : Nat) : Nat → Bool → List Char → List Char → Cursor →
    Option (List Char × List Char × List Char × Cursor)
  | 0, _, _, _, _ => none
  | fuel + 1, blankBefore, first, more, c =>
    if c.column != indent || c.rest.isEmpty then some ([], first, more, c)
    else do
      let blankHere := c.rest.head?.any isBlank
      let joint :=
        if !literal && first == ['\n'] && !blankBefore && !blankHere then
          (if more.isEmpty then [' '] else []) ++ more
        else first ++ more
      let (line, c) := c.takeWhile fun ch => !isBreak ch
      let (first, c) := (c.takeBreak?).getD ([], c)
      let (more, _, c) ← readBlockBreaks indent (fuel + 1) 0 [] c
      let (text, first, more, c) ← readBlockLines literal indent fuel blankHere first more c
      return (joint ++ line ++ text, first, more, c)

/-- Reads the header of a block scalar: its chomping and its indentation increment, zero if none is
given. -/
def readBlockHeader (c : Cursor) : Option (Chomping × Nat × Cursor) :=
  let chomping? := fun (c : Cursor) =>
    if c.at? '+' then some Chomping.keep else if c.at? '-' then some Chomping.strip else none
  let digit? := fun (c : Cursor) => (c.peek?.filter Char.isDigit).map fun ch => ch.toNat - 48
  match chomping? c with
  | some chomping =>
    let c := c.skip 1
    match digit? c with
    | some 0 => none
    | some n => some (chomping, n, c.skip 1)
    | none => some (chomping, 0, c)
  | none =>
    match digit? c with
    | some 0 => none
    | some n =>
      let c := c.skip 1
      match chomping? c with
      | some chomping => some (chomping, n, c.skip 1)
      | none => some (.clip, n, c)
    | none => some (.clip, 0, c)

/-- The cursor after the blanks, the comment and the break that may end a line of marks. -/
def finishLine? (c : Cursor) : Option Cursor :=
  let c := c.skipWhile isBlank
  let c := if c.at? '#' then c.skipLine else c
  if endsLine c.rest then some ((c.takeBreak?.map Prod.snd).getD c) else none

/-- Reads a block scalar, from after its mark. `parent` is the indentation of the surrounding
collection, -1 if there is none. -/
def readBlock (literal : Bool) (parent : Int) (fuel : Nat) (c : Cursor) :
    Option (List Char × Cursor) := do
  let (chomping, increment, c) ← readBlockHeader c
  let c ← finishLine? c
  let given := if increment = 0 then 0 else (max parent 0).toNat + increment
  let (more, deepest, c) ← readBlockBreaks given fuel 0 [] c
  let indent := if given = 0 then max deepest (max (parent + 1).toNat 1) else given
  let (text, first, more, c) ← readBlockLines literal indent fuel false [] more c
  let tail :=
    match chomping with
    | .strip => []
    | .clip => first
    | .keep => first ++ more
  return (text ++ tail, c)

end OpenApiClient.Yaml
