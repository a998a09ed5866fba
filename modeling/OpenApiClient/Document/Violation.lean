import OpenApiClient.Json.Writer
import OpenApiClient.Text.Blank

/-!
# Rules for raw documents

Before a raw value is read as a document, six rules are checked in a fixed order, and the first one
that is broken is reported. The version and the words about the document may be written as any
scalar: what counts is the text of the scalar.
-/

namespace OpenApiClient

/-- The first rule that a raw value breaks. -/
inductive Violation where
  /-- The value is no object. -/
  | notObject
  /-- There is no version. -/
  | missingVersion
  /-- The major version is not three. -/
  | unsupportedMajor (version : String)
  /-- The minor version is neither zero nor one. -/
  | unsupportedMinor (version : String)
  /-- There is nothing about the document itself. -/
  | missingInfo
  /-- The title or the version of the document is missing or blank. -/
  | blankInfo (field : String)
  /-- There are no paths. -/
  | missingPaths
  deriving DecidableEq, Repr

namespace Violation

def message : Violation → String
  | notObject => "document must be a JSON or YAML object"
  | missingVersion => "missing required field `openapi`"
  | unsupportedMajor v =>
    "unsupported OpenAPI version `" ++ v ++ "`: only OpenAPI 3.x is supported"
  | unsupportedMinor v => "unsupported OpenAPI version `" ++ v ++ "`: expected 3.0.x or 3.1.x"
  | missingInfo => "missing required field `info`"
  | blankInfo field => "`info." ++ field ++ "` must be a non-empty string"
  | missingPaths => "missing required field `paths`"

def field : Violation → Option String
  | notObject => none
  | missingVersion | unsupportedMajor _ | unsupportedMinor _ => some "openapi"
  | missingInfo | blankInfo _ => some "info"
  | missingPaths => some "paths"

def help : Violation → Option String
  | missingVersion => some "Swagger 2.0 documents must be converted to OpenAPI 3 first"
  | _ => none

end Violation

namespace Json

/-- A raw value as a text: a string is itself, null is nothing, and all else is written out. -/
def scalarText : Json → String
  | .str s => s
  | .num n => n.text
  | .null => ""
  | v => v.compact

end Json

namespace Document

/-- Whether a version belongs to a major version, or to a major and a minor one. -/
def versionBegins (head version : String) : Bool :=
  (Text.afterHead? head.toList version.toList).isSome

def checkVersion (root : List (String × Json)) : Except Violation Unit :=
  match Entries.get? "openapi" root with
  | none => .error .missingVersion
  | some v =>
    let version := v.scalarText
    if !versionBegins "3." version then .error (.unsupportedMajor version)
    else if !(versionBegins "3.0." version || versionBegins "3.1." version) then
      .error (.unsupportedMinor version)
    else .ok ()

def checkInfoField (info : List (String × Json)) (field : String) : Except Violation Unit :=
  match Entries.get? field info with
  | some v => if Text.isBlank v.scalarText then .error (.blankInfo field) else .ok ()
  | none => .error (.blankInfo field)

/-- Checks what the document says about itself. -/
def checkInfo (root : List (String × Json)) : Except Violation Unit :=
  match (Entries.get? "info" root).bind Json.entries? with
  | none => .error .missingInfo
  | some info => do
    checkInfoField info "title"
    checkInfoField info "version"

def checkPaths (root : List (String × Json)) : Except Violation Unit :=
  match (Entries.get? "paths" root).bind Json.entries? with
  | none => .error .missingPaths
  | some _ => .ok ()

def check (v : Json) : Except Violation Unit :=
  match v with
  | .obj root => do
    checkVersion root
    checkInfo root
    checkPaths root
  | _ => .error .notObject

def textFields (v : Json) : Json :=
  let asText := fun (v : Json) => Json.str v.scalarText
  match v with
  | .obj root =>
    .obj (Entries.modify "info"
      (fun info =>
        match info with
        | .obj fields =>
          .obj (Entries.modify "version" asText (Entries.modify "title" asText fields))
        | other => other)
      (Entries.modify "openapi" asText root))
  | other => other

end Document

end OpenApiClient
