import OpenApiClient.Json.Writer
import OpenApiClient.Text.Basic

/-!
# Identifiers and property names

Which names can be declared and which can be written as properties without quotes. Every property
name has a written form as a key and one as an access; those that are no identifiers are quoted.
-/

namespace OpenApiClient.Code

/-- The words that name neither a value nor a type. -/
def reservedWords : List String :=
  ["break", "case", "catch", "class", "const", "continue", "debugger", "default", "delete", "do",
    "else", "enum", "export", "extends", "false", "finally", "for", "function", "if", "import",
    "in", "instanceof", "let", "new", "null", "return", "super", "switch", "this", "throw", "true",
    "try", "typeof", "var", "void", "while", "with", "yield",
    "await", "implements", "interface", "package", "private", "protected", "public", "static",
    "any", "boolean", "never", "number", "object", "string", "symbol", "undefined", "unknown"]

/-- Whether a name cannot be declared. -/
def isReserved (name : String) : Bool :=
  reservedWords.contains name

/-- A name that can be declared: a reserved word gets an underscore in front. -/
def safeName (name : String) : String :=
  if isReserved name then "_" ++ name else name

def isIdentifierStart (c : Char) : Bool :=
  c.isAlpha || c == '_' || c == '$'

def isIdentifierPart (c : Char) : Bool :=
  c.isAlphanum || c == '_' || c == '$'

/-- Whether a text can be written as a property without quotes. -/
def isIdentifier (name : String) : Bool :=
  match name.toList with
  | [] => false
  | c :: rest => isIdentifierStart c && rest.all isIdentifierPart

def propertyKey (name : String) : String :=
  if isIdentifier name then name else Json.quote name

def propertyAccess (object name : String) : String :=
  if isIdentifier name then object ++ "." ++ name else object ++ "[" ++ Json.quote name ++ "]"

def singleQuoted (s : String) : String :=
  "'" ++ Text.replaceString "'" "\\'" (Text.replaceString "\\" "\\\\" s) ++ "'"

end OpenApiClient.Code
