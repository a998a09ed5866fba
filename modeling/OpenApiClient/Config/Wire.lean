import OpenApiClient.Config.Basic
import OpenApiClient.Json.Typed

/-!
# Configurations as raw values

How settings and configurations are written, and how the fields of settings are entered one by one,
whatever the format is that they are read from.
-/

namespace OpenApiClient

/-- Readings of the values of settings from something that stands for a value. Each may give nothing
if the choice is left open. -/
structure SettingReader (Source : Type) (Result : Type → Type) where
  choice : {α : Type} → List (String × α) → Source → Result (Option α)
  texts : Source → Result (Option (List String))
  flag : Source → Result (Option Bool)
  text : Source → Result (Option String)

namespace Settings

def wireRecord : Json.Record where
  name := "PartialConfig"
  fields := ["codeLanguage", "outputTags", "excludeTags", "functionNaming", "typeNaming",
    "generateIndex", "generateUtils", "separateTypes", "useAsync", "includeComments",
    "exportStyle", "importTemplate", "requestUtilPath"]
  required := []

/-- Enters a field; a name that is no field changes nothing. -/
def enter {Source : Type} {Result : Type → Type} [Monad Result] (r : SettingReader Source Result)
    (key : String) (v : Source) (s : Settings) : Result Settings :=
  match key with
  | "codeLanguage" => do return { s with language := ← r.choice Language.names v }
  | "outputTags" => do return { s with outputTags := ← r.texts v }
  | "excludeTags" => do return { s with excludeTags := ← r.texts v }
  | "functionNaming" => do return { s with functionNaming := ← r.choice NameStyle.names v }
  | "typeNaming" => do return { s with typeNaming := ← r.choice NameStyle.names v }
  | "generateIndex" => do return { s with generateIndex := ← r.flag v }
  | "generateUtils" => do return { s with generateUtils := ← r.flag v }
  | "separateTypes" => do return { s with separateTypes := ← r.flag v }
  | "useAsync" => do return { s with useAsync := ← r.flag v }
  | "includeComments" => do return { s with includeComments := ← r.flag v }
  | "exportStyle" => do return { s with exportStyle := ← r.choice ExportStyle.names v }
  | "importTemplate" => do return { s with importTemplate := ← r.text v }
  | "requestUtilPath" => do return { s with requestUtilPath := ← r.text v }
  | _ => pure s

def textsToJson (texts : List String) : Json :=
  .arr (texts.map .str)

/-- The entry of a choice, if it was made. -/
def entryOf {α : Type} (key : String) (write : α → Json) (v : Option α) : List (String × Json) :=
  v.toList.map fun a => (key, write a)

def toJson (s : Settings) : Json :=
  .obj (entryOf "codeLanguage" (fun l => .str l.name) s.language ++
    entryOf "outputTags" textsToJson s.outputTags ++
    entryOf "excludeTags" textsToJson s.excludeTags ++
    entryOf "functionNaming" (fun n => .str n.name) s.functionNaming ++
    entryOf "typeNaming" (fun n => .str n.name) s.typeNaming ++
    entryOf "generateIndex" .bool s.generateIndex ++
    entryOf "generateUtils" .bool s.generateUtils ++
    entryOf "separateTypes" .bool s.separateTypes ++
    entryOf "useAsync" .bool s.useAsync ++
    entryOf "includeComments" .bool s.includeComments ++
    entryOf "exportStyle" (fun e => .str e.name) s.exportStyle ++
    entryOf "importTemplate" .str s.importTemplate ++
    entryOf "requestUtilPath" .str s.requestUtilPath)

end Settings

def Config.toJson (c : Config) : Json :=
  .obj [("codeLanguage", .str c.language.name),
    ("outputTags", Settings.textsToJson c.outputTags),
    ("excludeTags", Settings.textsToJson c.excludeTags),
    ("functionNaming", .str c.functionNaming.name),
    ("typeNaming", .str c.typeNaming.name),
    ("generateIndex", .bool c.generateIndex),
    ("generateUtils", .bool c.generateUtils),
    ("separateTypes", .bool c.separateTypes),
    ("useAsync", .bool c.useAsync),
    ("includeComments", .bool c.includeComments),
    ("exportStyle", .str c.exportStyle.name),
    ("importTemplate", .str c.importTemplate),
    ("requestUtilPath", .str c.requestUtilPath)]

end OpenApiClient
