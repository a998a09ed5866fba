import OpenApiClient.Text.Words
import OpenApiClient.Text.Lowercase
import OpenApiClient.Text.Basic

/-!
# Naming styles

A naming style turns any text into an identifier: the words of the text are cased and put together,
and an underscore is put in front when there would be nothing or a digit first. `NameStyle.format`
is the only way in which names of functions and types are made.
-/

namespace OpenApiClient

/-- The casing of generated function and type names. -/
inductive NameStyle where
  /-- Like `getPetsId`. -/
  | camel
  /-- Like `get_pets_id`. -/
  | snake
  /-- Like `GetPetsId`. -/
  | pascal
  deriving DecidableEq, Repr

namespace NameStyle

def all : List NameStyle := [camel, snake, pascal]

def name : NameStyle → String
  | camel => "camelCase"
  | snake => "snake_case"
  | pascal => "PascalCase"

/-- A word with its first letter in upper case and the rest as it is, so that acronyms survive. -/
def capitalize : List Char → List Char
  | [] => []
  | c :: rest => c.toUpper :: rest

def lower (word : List Char) : List Char :=
  word.map Char.toLower

/-- Words cased and put together. -/
def assemble : NameStyle → List (List Char) → List Char
  | camel, [] => []
  | camel, word :: words => lower word ++ words.flatMap capitalize
  | snake, words => Text.join ['_'] (words.map lower)
  | pascal, words => words.flatMap capitalize

/-- Makes an identifier of a text of letters, digits and underscores. -/
def guardStart : List Char → List Char
  | [] => ['_']
  | c :: rest => if c.isDigit then '_' :: c :: rest else c :: rest

def recase (style : NameStyle) (s : String) : String :=
  String.ofList (style.assemble (Text.words s.toList))

/-- The identifier that a text gives in this style: never empty, and without a digit first. -/
def format (style : NameStyle) (s : String) : String :=
  String.ofList (guardStart (style.assemble (Text.words s.toList)))

/-- The style that a user names, whatever the case and the separators of the name. -/
def ofUserText? (s : String) : Except String NameStyle :=
  let key := (Text.lowercase s.toList).filter fun c => c != '-' && c != '_'
  match String.ofList key with
  | "camelcase" | "camel" => .ok camel
  | "snakecase" | "snake" => .ok snake
  | "pascalcase" | "pascal" => .ok pascal
  | _ => .error ("unknown naming style '" ++ s ++
      "', expected 'camelCase', 'snake_case' or 'PascalCase'")

end NameStyle

end OpenApiClient
