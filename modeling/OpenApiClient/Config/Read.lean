import OpenApiClient.Config.Wire
import OpenApiClient.Json.Direct
import OpenApiClient.Toml.Document

/-!
# Reading settings

Settings are read from JSON or from TOML. Both refuse fields that are no settings. A JSON text is
read along its characters, so that a message can name line and column; a TOML text is read as a
whole first, and its fields are looked at in the order of their names.
-/

namespace OpenApiClient

namespace Json

/-- Readings of the values of settings in JSON; null leaves a choice open. -/
def settingReader : SettingReader Unit Direct where
  choice names _ := Direct.optional (Direct.name names)
  texts _ := Direct.optional (Direct.list (Direct.text "a string"))
  flag _ := Direct.optional Direct.flag
  text _ := Direct.optional (Direct.text "a string")

end Json

/-- Reads settings along a JSON text. -/
def Settings.direct : Json.Direct Settings :=
  Json.Direct.record Settings.wireRecord (fun key s => s.enter Json.settingReader key ()) {}

/-! ## Settings in TOML -/

namespace Toml

/-- Why a TOML value cannot be read as what is asked for. -/
inductive Cause where
  | mismatch (m : Json.Mismatch)
  /-- An integer of more than 64 bits, described with the type that it fits into. -/
  | largeInteger (n : Int) (expected : String)
  /-- An integer of more than 128 bits. -/
  | hugeInteger
  /-- A number larger than every double. -/
  | hugeNumber
  /-- Neither a name nor a table with one. -/
  | noName
  /-- A table that should have had a single key. -/
  | keyCount (isEmpty : Bool)
  /-- Something after a name that should have been empty. -/
  | notEmpty (what : String)
  /-- Something after a name that is no table. -/
  | noTable (what : String)
  deriving DecidableEq, Repr

def Cause.message : Cause → String
  | mismatch m => m.message .positional
  | largeInteger n expected =>
    "invalid type: integer `" ++ toString n ++ "` as " ++
      (if n < (Nat.pow 2 127 : Nat) then "i128" else "u128") ++ ", expected " ++ expected
  | hugeInteger => "integer number overflowed"
  | hugeNumber => "floating-point number overflowed"
  | noName => "wanted string or table"
  | keyCount true => "wanted exactly 1 element, found 0 elements"
  | keyCount false => "wanted exactly 1 element, more than 1 element"
  | notEmpty what => "expected empty " ++ what
  | noTable what => "expected table, found " ++ what

structure Fault where
  cause : Cause
  spot : Spot
  deriving DecidableEq, Repr

def found : Value → Json.Found
  | .scalar (.text s) => .text s
  | .scalar (.int n) => .int n
  | .scalar (.double d) => .double d
  | .scalar (.flag b) => .bool b
  | .scalar .tooLarge => .double Double.infinity
  | .scalar .moment => .map
  | .list _ _ => .sequence
  | .table _ _ => .map

def typeName : Value → String
  | .scalar (.text _) => "string"
  | .scalar (.int _) => "integer"
  | .scalar (.double _) | .scalar .tooLarge => "float"
  | .scalar (.flag _) => "boolean"
  | .scalar .moment => "datetime"
  | .list _ _ => "array"
  | .table _ _ => "table"

def wrongType (expected : String) (v : Value) : Cause :=
  match v with
  | .scalar .tooLarge => .hugeNumber
  | .scalar (.int n) =>
    if Json.Number.isExact n then .mismatch (.wrongType (.int n) expected)
    else if -(Nat.pow 2 127 : Nat) ≤ n && n < (Nat.pow 2 128 : Nat) then
      .largeInteger n expected
    else .hugeInteger
  | v => .mismatch (.wrongType (found v) expected)

def asText : Node → Except Fault String
  | (_, .scalar (.text s)) => .ok s
  | (spot, v) => .error ⟨wrongType "a string" v, spot⟩

/-- Reads a truth value. -/
def asFlag : Node → Except Fault Bool
  | (_, .scalar (.flag b)) => .ok b
  | (spot, v) => .error ⟨wrongType "a boolean" v, spot⟩

def asTexts : Node → Except Fault (List String)
  | (_, .list _ items) => items.mapM asText
  | (spot, v) => .error ⟨wrongType "a sequence" v, spot⟩

/-- Requires that there is nothing after a name. -/
def asEmpty : Node → Except Fault Unit
  | (_, .list _ []) | (_, .table _ []) => .ok ()
  | (spot, .list _ _) => .error ⟨.notEmpty "array", spot⟩
  | (spot, .table _ _) => .error ⟨.notEmpty "table", spot⟩
  | (spot, v) => .error ⟨.noTable (typeName v), spot⟩

/-- Reads one of several names, given what each stands for. A name may also be the only key of a
table, with nothing in it. -/
def asChoice {α : Type} (names : List (String × α)) : Node → Except Fault α
  | (spot, .scalar (.text s)) => pick s spot
  | (spot, .table _ []) => .error ⟨.keyCount true, spot⟩
  | (_, .table _ [(k, v)]) => do
    let a ← pick k.name k.spot
    asEmpty v
    return a
  | (spot, .table _ _) => .error ⟨.keyCount false, spot⟩
  | (spot, _) => .error ⟨.noName, spot⟩
where
  /-- What a name stands for. -/
  pick (s : String) (spot : Spot) : Except Fault α :=
    match names.lookup s with
    | some a => .ok a
    | none => .error ⟨.mismatch (.unknownVariant s (names.map Prod.fst)), spot⟩

def settingReader : SettingReader Node (Except Fault) where
  choice names v := some <$> asChoice names v
  texts v := some <$> asTexts v
  flag v := some <$> asFlag v
  text v := some <$> asText v

def enterSetting (s : Settings) (entry : Key × Node) : Except Fault Settings :=
  let (k, v) := entry
  if Settings.wireRecord.fields.contains k.name then s.enter settingReader k.name v
  else .error ⟨.mismatch (.unknownField k.name Settings.wireRecord.fields), k.spot⟩

/-- Reads settings from the entries of a document, in the order of their keys. -/
def asSettings (entries : Entries) : Except Fault Settings :=
  (entries.mergeSort fun a b => decide (a.1.name ≤ b.1.name)).foldlM enterSetting {}

end Toml

/-! ## Settings in either format -/

/-- Why settings cannot be read. -/
inductive SettingsError where
  /-- The text is no TOML. -/
  | notToml
  /-- A message about the text, with the part that it is about. -/
  | reported (text : String) (span : Option Text.Span)
  deriving DecidableEq, Repr

/-- The wording of an error, if it says more than that there is one. -/
def SettingsError.message? : SettingsError → Option String
  | notToml => none
  | reported text _ => some ("invalid configuration: " ++ text)

inductive SettingsFormat where
  | json
  | toml
  deriving DecidableEq, Repr

/-- Whether a file of settings is JSON, which its extension tells; a name that only begins with a
point has none. -/
def SettingsFormat.ofPath (path : String) : SettingsFormat :=
  let name := Text.afterLast '/' path.toList
  let pieces := Text.splitOn '.' name
  let stem := pieces.dropLast
  let isNamed := stem != [] && stem != [[]]
  if isNamed && (pieces.getLast?.getD []).map Char.toLower == "json".toList then .json else .toml

def Settings.read (format : SettingsFormat) (text : String) : Except SettingsError Settings :=
  let cs := text.toList
  match format with
  | .json =>
    match Json.readDirect Settings.direct cs with
    | .ok s => .ok s
    | .error e =>
      .error (.reported e.message (Text.spanAt cs e.position.line e.position.column))
  | .toml =>
    match Toml.read? cs with
    | none => .error .notToml
    | some entries =>
      match Toml.asSettings entries with
      | .ok s => .ok s
      | .error f => .error (.reported f.cause.message (some (f.spot.span (Text.byteLength cs))))

end OpenApiClient
