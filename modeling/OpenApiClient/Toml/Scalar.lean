import OpenApiClient.Double.Basic
import OpenApiClient.Json.Reader

/-!
# Scalars of a TOML text

The values of a TOML text that hold no other values: texts in four kinds of quotes, and the words
that stand for numbers, truth values, dates and times.
-/

namespace OpenApiClient.Toml

/-- A value that holds no other values. -/
inductive Scalar where
  | text (s : String)
  | int (n : Int)
  | double (d : Double)
  /-- A number with a fraction or an exponent that is larger than every double. -/
  | tooLarge
  | flag (b : Bool)
  /-- A date, a time or both. -/
  | moment
  deriving DecidableEq, Repr

/-- A reading of a part of a text. -/
abbrev Reader := StateT (List Char) Option

/-- What the text has in front of it goes, if it is there. -/
def accept (head : List Char) : Reader Bool := fun cs =>
  match Text.afterHead? head cs with
  | some rest => some (true, rest)
  | none => some (false, cs)

/-- Requires what the text has in front of it. -/
def demand (head : List Char) : Reader Unit := fun cs =>
  (Text.afterHead? head cs).map fun rest => ((), rest)

def takeClass (p : Char → Bool) : Reader (List Char) := fun cs =>
  some (cs.takeWhile p, cs.dropWhile p)

def ensure (condition : Bool) : Reader Unit :=
  if condition then pure () else StateT.lift none

def isBlank (c : Char) : Bool :=
  c == ' ' || c == '\t'

/-- A character that can stand in a text or a comment by itself. -/
def isPlain (c : Char) : Bool :=
  c == '\t' || (0x20 ≤ c.toNat && c.toNat != 0x7F)

/-! ## Texts -/

def charOf? (n : Nat) : Option Char :=
  if h : n.isValidChar then some (Char.ofNatAux n h) else none

def hexChar? (digits : List Char) : Option Char :=
  (digits.foldlM (fun n c => (Json.hexValue? c).map fun d => n * 16 + d) 0).bind charOf?

/-- How many hexadecimal digits follow an escape letter. -/
def escapeWidth (c : Char) : Nat :=
  if c = 'u' then 4 else if c = 'U' then 8 else if c = 'x' then 2 else 0

def simpleEscape? (c : Char) : Option Char :=
  match c with
  | 'b' => some '\x08'
  | 't' => some '\t'
  | 'n' => some '\n'
  | 'f' => some '\x0c'
  | 'r' => some '\r'
  | 'e' => some '\x1b'
  | '"' => some '"'
  | '\\' => some '\\'
  | _ => none

def readEscape : Reader Char := fun cs =>
  match cs with
  | [] => none
  | c :: rest =>
    let width := escapeWidth c
    if width = 0 then (simpleEscape? c).map fun e => (e, rest)
    else if rest.length < width then none
    else (hexChar? (rest.take width)).map fun e => (e, rest.drop width)

/-- The line break in front of a text goes. -/
def lineBreak? : List Char → Option (List Char)
  | '\n' :: rest => some rest
  | '\r' :: '\n' :: rest => some rest
  | _ => none

/-- Reads a text on one line, from after its quote; `escapes` tells whether backslashes count. -/
def lineText (quote : Char) (escapes : Bool) : Nat → Reader (List Char)
  | 0 => StateT.lift none
  | fuel + 1 => fun cs =>
    match cs with
    | [] => none
    | c :: rest =>
      if c = quote then some ([], rest)
      else if escapes && c == '\\' then
        (do let e ← readEscape; return e :: (← lineText quote escapes fuel)) rest
      else if isPlain c then (do return c :: (← lineText quote escapes fuel)) rest
      else none

/-- The text after a backslash at the end of a line: all blanks and breaks are left out. -/
def afterFold? (cs : List Char) : Option (List Char) :=
  (lineBreak? (cs.dropWhile isBlank)).map fun rest =>
    rest.dropWhile fun c => isBlank c || c == '\n' || c == '\r'

/-- Reads a text on several lines, from after its quotes and the break that follows them. Up to two
quotes in front of the three that end it belong to it. -/
def blockText (quote : Char) (escapes : Bool) : Nat → Reader (List Char)
  | 0 => StateT.lift none
  | fuel + 1 => fun cs =>
    match cs with
    | [] => none
    | c :: rest =>
      if c = quote then
        let quotes := (c :: rest).takeWhile (· == quote)
        if 3 ≤ quotes.length then
          let inside := min (quotes.length - 3) 2
          some (List.replicate inside quote, (c :: rest).drop (inside + 3))
        else (do return c :: (← blockText quote escapes fuel)) rest
      else if escapes && c == '\\' then
        match afterFold? rest with
        | some rest => blockText quote escapes fuel rest
        | none => (do let e ← readEscape; return e :: (← blockText quote escapes fuel)) rest
      else
        match lineBreak? (c :: rest) with
        | some rest => (do return '\n' :: (← blockText quote escapes fuel)) rest
        | none =>
          if isPlain c then (do return c :: (← blockText quote escapes fuel)) rest else none

def quoted (quote : Char) : Reader String := do
  let escapes := quote == '"'
  let fuel := (← get).length + 1
  if ← accept [quote, quote, quote] then
    modify fun cs => (lineBreak? cs).getD cs
    return String.ofList (← blockText quote escapes fuel)
  else
    demand [quote]
    return String.ofList (← lineText quote escapes fuel)

/-! ## Words -/

def isWordChar (c : Char) : Bool :=
  c.isAlphanum || c == '_' || c == '+' || c == '-' || c == '.' || c == ':'

/-- Digits of a number, without the underscores between them; every underscore stands between two
digits. -/
def digitsOf? (isDigit : Char → Bool) : List Char → Option (List Char)
  | [] => none
  | [c] => if isDigit c then some [c] else none
  | c :: '_' :: d :: rest =>
    if isDigit c && isDigit d then (digitsOf? isDigit (d :: rest)).map (c :: ·) else none
  | c :: rest => if isDigit c then (digitsOf? isDigit rest).map (c :: ·) else none

def numberOf (base : Nat) (digits : List Char) : Nat :=
  digits.foldl (fun n c => n * base + (Json.hexValue? c).getD 0) 0

def isHexDigit (c : Char) : Bool :=
  (Json.hexValue? c).isSome

def prefixed? (base : Nat) (isDigit : Char → Bool) (cs : List Char) : Option Scalar :=
  (digitsOf? isDigit cs).map fun digits => .int (numberOf base digits)

/-- Digits without a zero in front of others. -/
def wholePart? (cs : List Char) : Option (List Char) :=
  (digitsOf? Char.isDigit cs).filter fun digits => digits.length = 1 || digits.head? != some '0'

/-- The exponent that a word ends in, and what stands before it. -/
def splitExponent (cs : List Char) : List Char × Option (List Char) :=
  let before := cs.takeWhile fun c => c != 'e' && c != 'E'
  (before, if before.length = cs.length then none else some (cs.drop (before.length + 1)))

def exponentOf? : List Char → Option Int
  | '-' :: rest => (digitsOf? Char.isDigit rest).map fun digits => -(numberOf 10 digits : Int)
  | '+' :: rest => (digitsOf? Char.isDigit rest).map fun digits => (numberOf 10 digits : Int)
  | cs => (digitsOf? Char.isDigit cs).map fun digits => (numberOf 10 digits : Int)

/-- A double from its digits, the number of those after the point and an exponent. -/
def doubleOf (negative : Bool) (digits : List Char) (places : Nat) (exponent : Int) : Scalar :=
  let d := Double.ofDecimal (numberOf 10 digits) (exponent - places)
  if d.isFinite then .double (if negative then d.neg else d) else .tooLarge

def decimal? (negative : Bool) (cs : List Char) : Option Scalar :=
  if cs = ['i', 'n', 'f'] then
    some (.double (if negative then Double.infinity.neg else Double.infinity))
  else if cs = ['n', 'a', 'n'] then some (.double Double.nan)
  else do
    let (before, exponent) := splitExponent cs
    let places ←
      match exponent with
      | none => some 0
      | some e => exponentOf? e
    match Text.cutAt? '.' before with
    | some (whole, fraction) => do
      let whole ← wholePart? whole
      let fraction ← digitsOf? Char.isDigit fraction
      return doubleOf negative (whole ++ fraction) fraction.length places
    | none => do
      let whole ← wholePart? before
      if exponent.isSome then return doubleOf negative whole 0 places
      else
        let n : Int := numberOf 10 whole
        return .int (if negative then -n else n)

/-! ### Dates and times -/

/-- The number that exactly `width` digits in front of a text stand for. -/
def fixedDigits (width : Nat) : Reader Nat := fun cs =>
  let digits := cs.take width
  if digits.length = width && digits.all Char.isDigit then
    some (numberOf 10 digits, cs.drop width)
  else none

def daysIn (year month : Nat) : Nat :=
  if month = 2 then
    (if (year % 4 = 0 && year % 100 != 0) || year % 400 = 0 then 29 else 28)
  else if [4, 6, 9, 11].contains month then 30
  else 31

def date : Reader Unit := do
  let year ← fixedDigits 4
  demand ['-']
  let month ← fixedDigits 2
  demand ['-']
  let day ← fixedDigits 2
  ensure (1 ≤ month && month ≤ 12 && 1 ≤ day && day ≤ daysIn year month)

/-- Reads a time of a day; its seconds may be left out. -/
def time : Reader Unit := do
  let hour ← fixedDigits 2
  demand [':']
  let minute ← fixedDigits 2
  ensure (hour ≤ 23 && minute ≤ 59)
  if ← accept [':'] then
    let second ← fixedDigits 2
    ensure (second ≤ 60)
    if ← accept ['.'] then
      let fraction ← takeClass Char.isDigit
      ensure (!fraction.isEmpty)

/-- Reads the distance from universal time, if there is one. -/
def offset : Reader Unit := fun cs =>
  match cs with
  | c :: rest =>
    if c == 'Z' || c == 'z' then some ((), rest)
    else if c == '+' || c == '-' then
      (do
        let hour ← fixedDigits 2
        demand [':']
        let minute ← fixedDigits 2
        ensure (hour ≤ 23 && minute ≤ 59)) rest
    else some ((), cs)
  | [] => some ((), [])

def dateTime : Reader Unit := fun cs => do
  let ((), rest) ← date cs
  match rest with
  | [] => some ((), [])
  | c :: more =>
    if c == 'T' || c == 't' || c == ' ' then (do time; offset) more else none

/-- Whether a text is a date, a time or both. -/
def isMoment (cs : List Char) : Bool :=
  let whole := fun (r : Reader Unit) => ((r cs).any fun (_, rest) => rest.isEmpty)
  whole dateTime || whole time

def wordValue? (cs : List Char) : Option Scalar :=
  match cs with
  | ['t', 'r', 'u', 'e'] => some (.flag true)
  | ['f', 'a', 'l', 's', 'e'] => some (.flag false)
  | '0' :: 'x' :: rest => prefixed? 16 isHexDigit rest
  | '0' :: 'o' :: rest => prefixed? 8 (fun c => '0' ≤ c && c ≤ '7') rest
  | '0' :: 'b' :: rest => prefixed? 2 (fun c => c == '0' || c == '1') rest
  | '+' :: rest => decimal? false rest
  | '-' :: rest => decimal? true rest
  | cs => if isMoment cs then some .moment else decimal? false cs

/-- Whether a date and a space are followed by a time. -/
def continuesDate (word rest : List Char) : Bool :=
  (date word).any (fun (_, left) => left.isEmpty) && rest.head? == some ' ' &&
    (rest.drop 1).head?.any Char.isDigit

/-- Reads a word and what it stands for. A date and a time may be separated by a space. -/
def wordScalar : Reader Scalar := do
  let word ← takeClass isWordChar
  let rest ← get
  if continuesDate word rest then
    modify (·.drop 1)
    let more ← takeClass isWordChar
    StateT.lift (wordValue? (word ++ ' ' :: more))
  else StateT.lift (wordValue? word)

end OpenApiClient.Toml
