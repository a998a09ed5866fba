import OpenApiClient.Json.Reader
import OpenApiClient.Text.Blank
import OpenApiClient.Yaml.Json

/-!
# The text of a document

A document is written in JSON or in YAML, and nothing but the text itself says in which. A text that
begins with a brace or a bracket is tried as JSON first, any other as YAML first; the other format
is tried when the first one fails. When both fail, the failure of the JSON reader is reported, with
the place that it has in the text as it was given.
-/

namespace OpenApiClient

/-- A text that is neither JSON nor YAML. -/
structure SourceError where
  cause : Json.SyntaxError
  span : Option Text.Span
  deriving DecidableEq, Repr

/-- The first part of the wording of the error, about JSON. -/
def SourceError.message (e : SourceError) : String :=
  "failed to parse document: not valid JSON (" ++ e.cause.message ++ ")"

namespace Source

/-- The text that the readers are given: without the byte order marks in front of it and without the
blanks around it. -/
def strip (cs : List Char) : List Char :=
  Text.trim (cs.dropWhile (· == '\ufeff'))

/-- Whether a text is tried as JSON first. -/
def looksLikeJson (cs : List Char) : Bool :=
  cs.head?.any fun c => c == '\x7b' || c == '['

def readYaml? (cs : List Char) : Option Json :=
  (Yaml.read? cs).map Yaml.Value.toJson

def read (text : String) : Except SourceError Json :=
  let cs := strip text.toList
  match Json.read cs, looksLikeJson cs with
  | .ok v, true => .ok v
  | .ok v, false => .ok ((readYaml? cs).getD v)
  | .error e, _ =>
    match readYaml? cs with
    | some v => .ok v
    | none => .error ⟨e, Text.spanAt text.toList e.position.line e.position.column⟩

end Source

end OpenApiClient
