import OpenApiClient.Json.Reader
import OpenApiClient.Json.Typed

/-!
# Reading typed values straight from a text

Where a message must say at which line and column a value has the wrong type, the typed reading goes
along the text itself. A failure is one of grammar or one of content; a wrong value is read over
before it is reported, unless it is a list or an object, whose bracket stays unread.
-/

namespace OpenApiClient.Json

/-- Why a typed value cannot be read. -/
inductive DirectCause where
  /-- The text is no JSON. -/
  | grammar (cause : SyntaxCause)
  /-- The text is JSON of another form. -/
  | content (cause : Mismatch)
  deriving DecidableEq, Repr

def DirectCause.message : DirectCause → String
  | grammar cause => cause.message
  | content cause => cause.message .document

/-- A reader of typed values. -/
abbrev Direct := StateT (List Char) (Except (Failure DirectCause))

namespace Direct

/-- A reader that only knows the grammar. -/
def ofAttempt {α : Type} (read : List Char → Attempt (α × List Char)) : Direct α := fun cs =>
  (read cs).mapError fun f => ⟨.grammar f.cause, f.unread⟩

/-- A failure of content in front of the rest of the text. -/
def failContent {α : Type} (cause : Mismatch) : Direct α := fun rest =>
  failBefore (.content cause) rest

/-- A failure of grammar at the next character. -/
def failGrammar {α : Type} (cause : SyntaxCause) : Direct α := fun rest =>
  failAt (.grammar cause) rest

/-- The next character after spaces; a value must not end before it. -/
def peek : Direct Char := fun cs =>
  match skipSpaces cs with
  | [] => failAt (.grammar .endInValue) []
  | c :: rest => .ok (c, c :: rest)

/-- Goes over the next character. -/
def skip : Direct Unit := fun cs => .ok ((), cs.drop 1)

/-- What a value of the wrong type is. Its text is read unless it is a list or an object. -/
def foundNext : Direct Found := do
  match ← peek with
  | '[' => return .sequence
  | '\x7b' => return .map
  | '"' => return (← ofAttempt (value 1 0)).found
  | c =>
    if c == 'n' || c == 't' || c == 'f' || c == '-' || c.isDigit then
      return (← ofAttempt (value 1 0)).found
    else failGrammar .expectedValue

/-- Reports that the next value should have been another one. -/
def wrongType {α : Type} (expected : String) : Direct α := do
  let found ← foundNext
  failContent (.wrongType found expected)

def text (expected : String) : Direct String := do
  match ← peek with
  | '"' =>
    skip
    return String.ofList (← ofAttempt stringBody)
  | _ => wrongType expected

/-- Reads a truth value. -/
def flag : Direct Bool := do
  match ← peek with
  | 't' =>
    skip
    ofAttempt (wordRest true ['r', 'u', 'e'])
  | 'f' =>
    skip
    ofAttempt (wordRest false ['a', 'l', 's', 'e'])
  | _ => wrongType "a boolean"

def nothing : Direct Unit := do
  match ← peek with
  | 'n' =>
    skip
    ofAttempt (wordRest () ['u', 'l', 'l'])
  | _ => wrongType "unit"

/-- Reads something unless null stands in its place. -/
def optional {α : Type} (read : Direct α) : Direct (Option α) := fun cs =>
  match skipSpaces cs with
  | 'n' :: rest => (ofAttempt (wordRest none ['u', 'l', 'l'])) rest
  | cs => (some <$> read) cs

def items {α : Type} (read : Direct α) : Nat → Direct (List α)
  | 0 => failGrammar .tooDeep
  | fuel + 1 => do
    let a ← read
    if ← ofAttempt nextItem then return a :: (← items read fuel) else return [a]

def firstItem (cs : List Char) : Attempt (Bool × List Char) :=
  match skipSpaces cs with
  | [] => failAt .endInList []
  | ']' :: rest => .ok (false, rest)
  | rest => .ok (true, rest)

/-- Reads a list. Every item takes a character, so that the length of the text is fuel enough. -/
def list {α : Type} (read : Direct α) : Direct (List α) := do
  match ← peek with
  | '[' =>
    skip
    if ← ofAttempt firstItem then items read ((← get).length + 1) else return []
  | _ => wrongType "a sequence"

def pick {α : Type} (names : List (String × α)) (name : String) : Direct α :=
  match names.lookup name with
  | some a => return a
  | none => failContent (.unknownVariant name (names.map Prod.fst))

/-- Reads the brace that closes an object of one entry. -/
def closeBrace : Direct Unit := fun cs =>
  match skipSpaces cs with
  | '}' :: rest => .ok ((), rest)
  | [] => failBefore (.grammar .endInObject) []
  | rest => failBefore (.grammar .expectedValue) rest

/-- Reads one of several names, given what each stands for. A name may also be the only key of an
object with the value null. -/
def name {α : Type} (names : List (String × α)) : Direct α := do
  match ← peek with
  | '"' => pick names (← text "variant identifier")
  | '\x7b' =>
    skip
    let a ← pick names (← text "variant identifier")
    ofAttempt fun cs => (colon cs).map fun rest => ((), rest)
    nothing
    closeBrace
    return a
  | _ => failGrammar .expectedValue

/-! ## Records -/

/-- The text from which the place of a wrong key is counted: after the spaces and after a closing
brace. -/
def afterKey (cs : List Char) : List Char :=
  match skipSpaces cs with
  | '}' :: rest => rest
  | rest => rest

/-- Reads the entries of a record, from after the quote of a key, given the keys that were read. -/
def entries {σ : Type} (r : Record) (enter : String → σ → Direct σ) :
    Nat → List String → σ → Direct σ
  | 0, _, _ => failGrammar .tooDeep
  | fuel + 1, seen, s => do
    let key := String.ofList (← ofAttempt stringBody)
    if !r.fields.contains key then
      modify afterKey
      failContent (.unknownField key r.fields)
    else if seen.contains key then
      modify afterKey
      failContent (.duplicateField key)
    else do
      ofAttempt fun cs => (colon cs).map fun rest => ((), rest)
      let s ← enter key s
      if ← ofAttempt nextEntry then entries r enter fuel (key :: seen) s else return s

/-- Reads values into the fields of a record, from in front of one of them. -/
def positions {σ : Type} (enter : String → σ → Direct σ) : List String → σ → Direct σ
  | [], s => return s
  | [name], s => do
    let s ← enter name s
    closeList
    return s
  | name :: more, s => do
    let s ← enter name s
    if ← ofAttempt nextItem then positions enter more s else return s
where
  /-- Reads the bracket after the last value. -/
  closeList : Direct Unit := fun cs =>
    match skipSpaces cs with
    | ']' :: rest => .ok ((), rest)
    | [] => failAt (.grammar .endInList) []
    | ',' :: rest =>
      match skipSpaces rest with
      | ']' :: after => failAt (.grammar .trailingComma) (']' :: after)
      | rest => failAt (.grammar .trailingCharacters) rest
    | rest => failAt (.grammar .trailingCharacters) rest

/-- Reads a record that has no other fields than its own, as an object or as a list. -/
def record {σ : Type} (r : Record) (enter : String → σ → Direct σ) (draft : σ) : Direct σ := do
  match ← peek with
  | '\x7b' =>
    skip
    if ← ofAttempt firstEntry then entries r enter (r.fields.length + 1) [] draft
    else return draft
  | '[' =>
    skip
    if ← ofAttempt firstItem then positions enter r.fields draft else return draft
  | _ => wrongType ("struct " ++ r.name)

end Direct

/-- A failure of a typed reading with its place. -/
structure DirectError where
  cause : DirectCause
  position : Text.Position
  deriving DecidableEq, Repr

def DirectError.message (e : DirectError) : String :=
  e.cause.message ++ " at line " ++ toString e.position.line ++ " column " ++
    toString e.position.column

def readDirect {α : Type} (read : Direct α) (cs : List Char) : Except DirectError α :=
  match (do let a ← read; Direct.ofAttempt fun rest => (finish ((), rest)).map fun u => (u, []);
            return a) cs with
  | .ok (a, _) => .ok a
  | .error f => .error ⟨f.cause, f.position cs⟩

end OpenApiClient.Json
