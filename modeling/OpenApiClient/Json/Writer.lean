import OpenApiClient.Json.Basic
import OpenApiClient.Double.Format

/-!
# Writing values

The compact text of a value, without any space, and the indented text of a value. In strings only
the quote, the backslash and the control characters are escaped.
-/

namespace OpenApiClient.Json

/-- The hexadecimal digit of a number below sixteen. -/
def hexDigit (n : Nat) : Char :=
  if n < 10 then Char.ofNat (n + 48) else Char.ofNat (n + 87)

/-- A character inside a quoted string. -/
def escapeChar (c : Char) : List Char :=
  if c = '"' then ['\\', '"']
  else if c = '\\' then ['\\', '\\']
  else if c = '\n' then ['\\', 'n']
  else if c = '\r' then ['\\', 'r']
  else if c = '\t' then ['\\', 't']
  else if c.toNat = 8 then ['\\', 'b']
  else if c.toNat = 12 then ['\\', 'f']
  else if c.toNat < 32 then ['\\', 'u', '0', '0', hexDigit (c.toNat / 16), hexDigit (c.toNat % 16)]
  else [c]

def quoteChars (cs : List Char) : List Char :=
  '"' :: cs.flatMap escapeChar ++ ['"']

def quote (s : String) : String :=
  String.ofList (quoteChars s.toList)

def Number.text : Number → String
  | .int n => toString n
  | .double d => d.text .document

mutual

def compact : Json → String
  | .null => "null"
  | .bool true => "true"
  | .bool false => "false"
  | .num n => n.text
  | .str s => quote s
  | .arr items => "[" ++ compactItems items ++ "]"
  | .obj entries => "\x7b" ++ compactEntries entries ++ "\x7d"

/-- The items of an array, separated by commas. -/
def compactItems : List Json → String
  | [] => ""
  | [v] => compact v
  | v :: rest => compact v ++ "," ++ compactItems rest

/-- The entries of an object, separated by commas. -/
def compactEntries : List (String × Json) → String
  | [] => ""
  | [(k, v)] => quote k ++ ":" ++ compact v
  | (k, v) :: rest => quote k ++ ":" ++ compact v ++ "," ++ compactEntries rest

end

/-- The blanks in front of a line of the indented text. -/
def indentOf (depth : Nat) : String :=
  String.ofList (List.replicate (2 * depth) ' ')

mutual

/-- The text of a value with one item or entry a line, indented by two blanks for each level. -/
def pretty (depth : Nat) : Json → String
  | .arr [] => "[]"
  | .obj [] => "\x7b\x7d"
  | .arr items => "[\n" ++ prettyItems (depth + 1) items ++ "\n" ++ indentOf depth ++ "]"
  | .obj entries =>
    "\x7b\n" ++ prettyEntries (depth + 1) entries ++ "\n" ++ indentOf depth ++ "\x7d"
  | .null => "null"
  | .bool true => "true"
  | .bool false => "false"
  | .num n => n.text
  | .str s => quote s

def prettyItems (depth : Nat) : List Json → String
  | [] => ""
  | [v] => indentOf depth ++ pretty depth v
  | v :: rest => indentOf depth ++ pretty depth v ++ ",\n" ++ prettyItems depth rest

def prettyEntries (depth : Nat) : List (String × Json) → String
  | [] => ""
  | [(k, v)] => indentOf depth ++ quote k ++ ": " ++ pretty depth v
  | (k, v) :: rest =>
    indentOf depth ++ quote k ++ ": " ++ pretty depth v ++ ",\n" ++ prettyEntries depth rest

end

end OpenApiClient.Json
