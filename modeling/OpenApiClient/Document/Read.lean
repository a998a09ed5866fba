import OpenApiClient.Document.Inline
import OpenApiClient.Document.Normal
import OpenApiClient.Document.Source
import OpenApiClient.Document.Violation
import OpenApiClient.Document.Wire

/-!
# Reading documents

From a text to a document in normal form: the text is read as a raw value, the rules are checked,
references are replaced in place, the value is read as a document, and the document is normalized.
-/

namespace OpenApiClient

/-- Why there is no document. -/
inductive DocumentError where
  /-- The text is in no format that can be read. -/
  | source (e : SourceError)
  /-- The raw value breaks a rule. -/
  | violation (v : Violation)
  /-- A part of the raw value has the wrong form. -/
  | malformed (e : Json.ReadError)
  deriving DecidableEq, Repr

def DocumentError.message : DocumentError → String
  | source e => e.message
  | violation v => v.message
  | malformed e =>
    "invalid document at `" ++ Json.pathText e.path ++ "`: " ++ e.cause.message .document

namespace Document

def ofJson (v : Json) : Except DocumentError Document :=
  match check v with
  | .error e => .error (.violation e)
  | .ok () =>
    match readTyped (Inline.document (textFields v)) with
    | .error e => .error (.malformed e)
    | .ok d => .ok d.normalize

def parse (text : String) : Except DocumentError Document :=
  match Source.read text with
  | .error e => .error (.source e)
  | .ok v => ofJson v

end Document

end OpenApiClient
