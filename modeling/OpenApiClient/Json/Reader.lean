import OpenApiClient.Json.Basic
import OpenApiClient.Text.Position

/-!
# Reading JSON

The reader of JSON texts. It follows the grammar strictly: no comments, no commas at the end, no
leading zeros, at most 127 values nested in each other. A failure tells its cause and how many bytes
of the text were left unread, which fixes its position.

A number with digits beyond 64 bits, a fraction or an exponent becomes a double in two roundings:
its digits are gathered into an integer of at most 64 bits, further digits only count as places, and
the integer is then multiplied or divided by one power of ten.
-/

namespace OpenApiClient.Json

inductive SyntaxCause where
  | endInList
  | endInObject
  | endInString
  | endInValue
  | expectedColon
  | expectedListEnd
  | expectedObjectEnd
  | expectedIdent
  | expectedValue
  | invalidEscape
  | invalidNumber
  | numberOutOfRange
  | controlCharacter
  | keyNotString
  | loneSurrogate
  | trailingComma
  | trailingCharacters
  | unexpectedEscapeEnd
  | tooDeep
  deriving DecidableEq, Repr

def SyntaxCause.message : SyntaxCause → String
  | endInList => "EOF while parsing a list"
  | endInObject => "EOF while parsing an object"
  | endInString => "EOF while parsing a string"
  | endInValue => "EOF while parsing a value"
  | expectedColon => "expected `:`"
  | expectedListEnd => "expected `,` or `]`"
  | expectedObjectEnd => "expected `,` or `\x7d`"
  | expectedIdent => "expected ident"
  | expectedValue => "expected value"
  | invalidEscape => "invalid escape"
  | invalidNumber => "invalid number"
  | numberOutOfRange => "number out of range"
  | controlCharacter => "control character (\\u0000-\\u001F) found while parsing a string"
  | keyNotString => "key must be a string"
  | loneSurrogate => "lone leading surrogate in hex escape"
  | trailingComma => "trailing comma"
  | trailingCharacters => "trailing characters"
  | unexpectedEscapeEnd => "unexpected end of hex escape"
  | tooDeep => "recursion limit exceeded"

/-- A failure of a reader: its cause and the number of bytes that it left unread. -/
structure Failure (ε : Type) where
  cause : ε
  unread : Nat
  deriving DecidableEq, Repr

/-- What a reader of JSON gives; most give a value together with the rest of the text. -/
abbrev Attempt := Except (Failure SyntaxCause)

def failBefore {ε α : Type} (cause : ε) (rest : List Char) : Except (Failure ε) α :=
  .error ⟨cause, Text.byteLength rest⟩

/-- A failure at the next byte of the rest of the text, which is looked at but not read. -/
def failAt {ε α : Type} (cause : ε) (rest : List Char) : Except (Failure ε) α :=
  .error ⟨cause, Text.byteLength rest - 1⟩

/-- Whether a character may stand between the parts of a JSON text. -/
def isSpace (c : Char) : Bool :=
  c == ' ' || c == '\n' || c == '\t' || c == '\r'

def skipSpaces (cs : List Char) : List Char :=
  cs.dropWhile isSpace

/-! ## Strings -/

def hexValue? (c : Char) : Option Nat :=
  if c.isDigit then some (c.toNat - 48)
  else if 'a' ≤ c ∧ c ≤ 'f' then some (c.toNat - 87)
  else if 'A' ≤ c ∧ c ≤ 'F' then some (c.toNat - 55)
  else none

/-- The sixteen-bit unit that four hexadecimal digits stand for. -/
def hexUnit? (a b c d : Char) : Option Nat := do
  let a ← hexValue? a
  let b ← hexValue? b
  let c ← hexValue? c
  let d ← hexValue? d
  return ((a * 16 + b) * 16 + c) * 16 + d

/-- What is wrong with a text that does not begin with four hexadecimal digits. -/
def failHex {α : Type} (rest : List Char) : Attempt α :=
  let n := Text.byteLength rest
  if n < 4 then .error ⟨.endInString, 0⟩ else .error ⟨.invalidEscape, n - 4⟩

def simpleEscape? (c : Char) : Option Char :=
  match c with
  | '"' => some '"'
  | '\\' => some '\\'
  | '/' => some '/'
  | 'b' => some '\x08'
  | 'f' => some '\x0c'
  | 'n' => some '\n'
  | 'r' => some '\r'
  | 't' => some '\t'
  | _ => none

/-- What is wrong after a leading surrogate that no second escape follows. -/
def failPair {α : Type} : List Char → Attempt α
  | [] => .error ⟨.endInString, 0⟩
  | '\\' :: [] => .error ⟨.endInString, 0⟩
  | '\\' :: 'u' :: rest => failHex rest
  | '\\' :: rest => failAt .unexpectedEscapeEnd rest
  | rest => failAt .unexpectedEscapeEnd rest

def stringBody : List Char → Attempt (List Char × List Char)
  | [] => .error ⟨.endInString, 0⟩
  | '"' :: rest => .ok ([], rest)
  | '\\' :: 'u' :: a :: b :: c :: d :: rest =>
    match hexUnit? a b c d with
    | none => failHex (a :: b :: c :: d :: rest)
    | some n =>
      if 0xDC00 ≤ n ∧ n ≤ 0xDFFF then failBefore .loneSurrogate rest
      else if 0xD800 ≤ n ∧ n ≤ 0xDBFF then
        match rest with
        | '\\' :: 'u' :: a :: b :: c :: d :: rest =>
          match hexUnit? a b c d with
          | none => failHex (a :: b :: c :: d :: rest)
          | some m =>
            if 0xDC00 ≤ m ∧ m ≤ 0xDFFF then do
              let (cs, rest) ← stringBody rest
              return (Char.ofNat ((n - 0xD800) * 1024 + (m - 0xDC00) + 0x10000) :: cs, rest)
            else failBefore .loneSurrogate rest
        | rest => failPair rest
      else do
        let (cs, rest) ← stringBody rest
        return (Char.ofNat n :: cs, rest)
  | '\\' :: 'u' :: rest => failHex rest
  | '\\' :: [] => .error ⟨.endInString, 0⟩
  | '\\' :: e :: rest =>
    match simpleEscape? e with
    | none => .error ⟨.invalidEscape, Text.byteLength (e :: rest) - 1⟩
    | some c => do
      let (cs, rest) ← stringBody rest
      return (c :: cs, rest)
  | c :: rest =>
    if c.toNat < 32 then failBefore .controlCharacter rest
    else do
      let (cs, rest) ← stringBody rest
      return (c :: cs, rest)

/-! ## Numbers -/

def digitValue (c : Char) : Nat :=
  c.toNat - 48

/-- Takes digits into an integer as long as it stays below `2 ^ 64`; the first digit that does not
fit and all after it are left. -/
def gather (n : Nat) : List Char → Nat × List Char
  | [] => (n, [])
  | c :: rest =>
    let next := n * 10 + digitValue c
    if next < Nat.pow 2 64 then gather next rest else (n, c :: rest)

def powerOfTen (n : Nat) : Double :=
  Double.ofDecimal 1 n

/-- A double times a power of ten, none if that is too large. Beyond 308 places the double is first
divided by 1e308; three times suffice to leave nothing, which `steps` counts. -/
def shiftDecimal? (steps : Nat) (d : Double) (exponent : Int) : Option Double :=
  if exponent.natAbs ≤ 308 then
    if 0 ≤ exponent then
      let r := d.mulAbs (powerOfTen exponent.toNat)
      if r.isFinite then some r else none
    else some (d.divAbs (powerOfTen exponent.natAbs))
  else if d.magnitude = 0 then some d
  else if 0 ≤ exponent then none
  else
    match steps with
    | 0 => some Double.zero
    | steps + 1 => shiftDecimal? steps (d.divAbs (powerOfTen 308)) (exponent + 308)

def doubleOf? (negative : Bool) (digits : Nat) (exponent : Int) : Option Double :=
  (shiftDecimal? 4 (Double.ofNat digits) exponent).map fun d => if negative then d.neg else d

/-- The double of gathered digits, in front of the rest of the text. -/
def finishDouble (negative : Bool) (digits : Nat) (exponent : Int) (rest : List Char) :
    Attempt (Number × List Char) :=
  match doubleOf? negative digits exponent with
  | some d => .ok (.double d, rest)
  | none => failBefore .numberOutOfRange rest

/-- The largest exponent that is read digit by digit. -/
def exponentLimit : Nat :=
  Nat.pow 2 31 - 1

/-- Reads the digits of an exponent that is `soFar` already. -/
def exponentDigits (negative : Bool) (digits : Nat) (start : Int) (below : Bool) (soFar : Nat) :
    List Char → Attempt (Number × List Char)
  | [] => finishDouble negative digits (if below then start - soFar else start + soFar) []
  | c :: rest =>
    if c.isDigit then
      let next := soFar * 10 + digitValue c
      if next ≤ exponentLimit then exponentDigits negative digits start below next rest
      else if digits != 0 && !below then failBefore .numberOutOfRange rest
      else .ok (.double (Double.ofMagnitude negative 0), rest.dropWhile Char.isDigit)
    else finishDouble negative digits (if below then start - soFar else start + soFar) (c :: rest)

def exponentPart (negative : Bool) (digits : Nat) (start : Int) (cs : List Char) :
    Attempt (Number × List Char) :=
  let below := cs.head? = some '-'
  let cs := if cs.head? = some '-' || cs.head? = some '+' then cs.drop 1 else cs
  match cs with
  | [] => failBefore .endInValue []
  | c :: rest =>
    if c.isDigit then exponentDigits negative digits start below (digitValue c) rest
    else failAt .invalidNumber (c :: rest)

def isExponentMark (c : Char) : Bool :=
  c == 'e' || c == 'E'

def fractionPart (negative : Bool) (digits : Nat) (start : Int) (cs : List Char) :
    Attempt (Number × List Char) :=
  let fraction := cs.takeWhile Char.isDigit
  let rest := cs.dropWhile Char.isDigit
  if fraction.isEmpty then
    failAt (if rest.isEmpty then .endInValue else .invalidNumber) rest
  else
    let (digits, left) := gather digits fraction
    let exponent := start - ((fraction.length - left.length : Nat) : Int)
    match rest with
    | c :: after =>
      if isExponentMark c then exponentPart negative digits exponent after
      else finishDouble negative digits exponent rest
    | [] => finishDouble negative digits exponent rest

/-- An integer of at most 64 bits with its sign. Zero with a sign, and what the sign takes below
64 bits, are doubles. -/
def signedInteger (negative : Bool) (n : Nat) : Number :=
  if negative then
    if n = 0 || Nat.pow 2 63 < n then .double (Double.ofNat n).neg else .int (-(n : Int))
  else .int n

def numberBody (negative : Bool) (cs : List Char) : Attempt (Number × List Char) :=
  match cs with
  | [] => failBefore .endInValue []
  | '0' :: d :: rest =>
    if d.isDigit then failAt .invalidNumber (d :: rest) else afterInteger ['0'] (d :: rest)
  | c :: rest =>
    if c.isDigit then
      afterInteger (c :: rest.takeWhile Char.isDigit) (rest.dropWhile Char.isDigit)
    else failAt .invalidNumber (c :: rest)
where
  /-- Reads what follows the digits before the point. -/
  afterInteger (whole rest : List Char) : Attempt (Number × List Char) :=
    let (n, left) := gather 0 whole
    match rest with
    | '.' :: after => fractionPart negative n left.length after
    | c :: after =>
      if isExponentMark c then exponentPart negative n left.length after else plain n left rest
    | [] => plain n left rest
  /-- A number without fraction and exponent. -/
  plain (n : Nat) (left rest : List Char) : Attempt (Number × List Char) :=
    if left.isEmpty then .ok (signedInteger negative n, rest)
    else finishDouble negative n left.length rest

/-! ## Values -/

/-- Reads the rest of a word whose first letter has been read. -/
def wordRest {α : Type} (value : α) : List Char → List Char → Attempt (α × List Char)
  | [], cs => .ok (value, cs)
  | _ :: _, [] => failBefore .endInValue []
  | w :: word, c :: cs =>
    if w = c then wordRest value word cs else failAt .expectedIdent (c :: cs)

/-- Reads the colon between a key and its value. -/
def colon (cs : List Char) : Attempt (List Char) :=
  match skipSpaces cs with
  | ':' :: rest => .ok rest
  | [] => failAt .endInObject []
  | rest => failAt .expectedColon rest

/-- Whether a list goes on after an item: gives the text in front of the next item, or after the
closing bracket. -/
def nextItem (cs : List Char) : Attempt (Bool × List Char) :=
  match skipSpaces cs with
  | [] => failAt .endInList []
  | ']' :: rest => .ok (false, rest)
  | ',' :: rest =>
    match skipSpaces rest with
    | [] => failAt .endInValue []
    | ']' :: after => failAt .trailingComma (']' :: after)
    | rest => .ok (true, rest)
  | rest => failAt .expectedListEnd rest

/-- Whether an object goes on after an entry: gives the text after the quote of the next key, or
after the closing brace. -/
def nextEntry (cs : List Char) : Attempt (Bool × List Char) :=
  match skipSpaces cs with
  | [] => failAt .endInObject []
  | '}' :: rest => .ok (false, rest)
  | ',' :: rest =>
    match skipSpaces rest with
    | [] => failAt .endInValue []
    | '"' :: rest => .ok (true, rest)
    | '}' :: after => failAt .trailingComma ('}' :: after)
    | rest => failAt .keyNotString rest
  | rest => failAt .expectedObjectEnd rest

/-- Whether an object has a first entry: gives the text after the quote of its key, or after the
closing brace. -/
def firstEntry (cs : List Char) : Attempt (Bool × List Char) :=
  match skipSpaces cs with
  | [] => failAt .endInObject []
  | '}' :: rest => .ok (false, rest)
  | '"' :: rest => .ok (true, rest)
  | rest => failAt .keyNotString rest

/-- How deep values may be nested in each other. -/
def depthLimit : Nat := 127

mutual

/-- Reads a value that may hold `depth` more levels. Each call takes one unit of fuel. -/
def value : Nat → Nat → List Char → Attempt (Json × List Char)
  | 0, _, _ => .error ⟨.tooDeep, 0⟩
  | fuel + 1, depth, cs =>
    match skipSpaces cs with
    | [] => failAt .endInValue []
    | 'n' :: rest => wordRest .null ['u', 'l', 'l'] rest
    | 't' :: rest => wordRest (.bool true) ['r', 'u', 'e'] rest
    | 'f' :: rest => wordRest (.bool false) ['a', 'l', 's', 'e'] rest
    | '"' :: rest => do
      let (s, rest) ← stringBody rest
      return (.str (String.ofList s), rest)
    | '-' :: rest => do
      let (n, rest) ← numberBody true rest
      return (.num n, rest)
    | '[' :: rest =>
      if depth = 0 then failAt .tooDeep ('[' :: rest)
      else
        match skipSpaces rest with
        | [] => failAt .endInList []
        | ']' :: rest => .ok (.arr [], rest)
        | rest => do
          let (items, rest) ← items fuel (depth - 1) rest
          return (.arr items, rest)
    | '{' :: rest =>
      if depth = 0 then failAt .tooDeep ('{' :: rest)
      else do
        let (more, rest) ← firstEntry rest
        if more then do
          let (entries, rest) ← entries fuel (depth - 1) rest
          return (.obj (Entries.ofList entries), rest)
        else return (.obj [], rest)
    | c :: rest =>
      if c.isDigit then do
        let (n, rest) ← numberBody false (c :: rest)
        return (.num n, rest)
      else failAt .expectedValue (c :: rest)

def items : Nat → Nat → List Char → Attempt (List Json × List Char)
  | 0, _, _ => .error ⟨.tooDeep, 0⟩
  | fuel + 1, depth, cs => do
    let (v, rest) ← value fuel depth cs
    let (more, rest) ← nextItem rest
    if more then do
      let (vs, rest) ← items fuel depth rest
      return (v :: vs, rest)
    else return ([v], rest)

/-- Reads the entries of an object, from after the quote of a key. -/
def entries : Nat → Nat → List Char → Attempt (List (String × Json) × List Char)
  | 0, _, _ => .error ⟨.tooDeep, 0⟩
  | fuel + 1, depth, cs => do
    let (key, rest) ← stringBody cs
    let rest ← colon rest
    let (v, rest) ← value fuel depth rest
    let (more, rest) ← nextEntry rest
    let entry := (String.ofList key, v)
    if more then do
      let (es, rest) ← entries fuel depth rest
      return (entry :: es, rest)
    else return ([entry], rest)

end

structure SyntaxError where
  cause : SyntaxCause
  position : Text.Position
  deriving DecidableEq, Repr

def SyntaxError.message (e : SyntaxError) : String :=
  e.cause.message ++ " at line " ++ toString e.position.line ++ " column " ++
    toString e.position.column

def Failure.position {ε : Type} (f : Failure ε) (text : List Char) : Text.Position :=
  Text.positionAt text (Text.byteLength text - f.unread)

/-- Requires that nothing but spaces is left. -/
def finish {α : Type} : α × List Char → Attempt α
  | (v, rest) =>
    match skipSpaces rest with
    | [] => .ok v
    | rest => failAt .trailingCharacters rest

/-- A fuel that suffices for every text: each call reads a character or follows one that does. -/
def fuelFor (cs : List Char) : Nat :=
  2 * cs.length + 2

def read (cs : List Char) : Except SyntaxError Json :=
  match value (fuelFor cs) depthLimit cs >>= finish with
  | .ok v => .ok v
  | .error f => .error ⟨f.cause, f.position cs⟩

end OpenApiClient.Json
