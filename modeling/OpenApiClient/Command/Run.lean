import OpenApiClient.Command.Arguments
import OpenApiClient.Command.Report
import OpenApiClient.Config.Read
import OpenApiClient.Document.Read

/-!
# Running commands

A command reads its settings, then its document, and only then does something. The first step that
fails ends it. All reading and writing of files goes through a `FileStore`.
-/

namespace OpenApiClient.Command

/-- The end of a command: its exit code and what it printed. -/
structure Outcome where
  code : Nat
  report : Report
  deriving DecidableEq, Repr

namespace Outcome

def success (r : Report) : Outcome := ⟨0, r⟩

def failure (message : String) : Outcome := ⟨1, ⟨[], [message]⟩⟩

def misuse : Outcome := ⟨2, ⟨[], ["usage: apigen <COMMAND>"]⟩⟩

def outputText (o : Outcome) : String :=
  String.join (o.report.output.map fun s => s ++ "\n")

def messageText (o : Outcome) : String :=
  String.join (o.report.messages.map fun s => s ++ "\n")

end Outcome

def versionLine : String := "apigen 0.3.0"

/-- The file of settings that is written for a new project. -/
def settingsTemplate : String :=
  Text.joinStrings "\n"
    ["# apigen configuration", "",
      "# Output language: \"typescript\" or \"javascript\"",
      "codeLanguage = \"typescript\"", "",
      "# Only generate these tags (empty = all). Untagged operations are always kept.",
      "outputTags = []", "excludeTags = []", "",
      "# \"camelCase\", \"snake_case\" or \"PascalCase\"",
      "functionNaming = \"camelCase\"", "typeNaming = \"PascalCase\"", "",
      "generateIndex = true", "generateUtils = true", "separateTypes = true", "useAsync = true",
      "includeComments = true", "",
      "# \"named\" or \"default\"",
      "exportStyle = \"named\"", "",
      "importTemplate = \"import \x7b request \x7d from '../utils/request';\"",
      "requestUtilPath = \"../utils/request\"", ""]

section

variable {m : Type → Type} [Monad m]

abbrev Step (m : Type → Type) := ExceptT Outcome m

def stop {α : Type} (message : String) : Step m α :=
  throw (.failure message)

def readFile (store : FileStore m) (path : String) : Step m String := do
  match ← (store.read? path : m (Option String)) with
  | some text => return text
  | none => stop ("failed to read '" ++ path ++ "'")

def settingsOf (path text : String) : Step m Settings :=
  match Settings.read (.ofPath path) text with
  | .ok s => return s
  | .error e => stop (e.message?.getD "invalid configuration")

/-- The settings of a file that is named, or else of the default file if it is there. -/
def readSettings (store : FileStore m) : Option String → Step m Settings
  | some path => do settingsOf path (← readFile store path)
  | none => do
    match ← (store.read? defaultConfigFile : m (Option String)) with
    | some text => settingsOf defaultConfigFile text
    | none => return {}

def readDocument (store : FileStore m) (path : String) : Step m Document := do
  match Document.parse (← readFile store path) with
  | .ok d => return d
  | .error e => stop e.message

def generate (store : FileStore m) (input : String) (config : Option String) (output : String)
    (delivery : Delivery) (overrides : Settings) : Step m Outcome := do
  let settings ← readSettings store config
  let c := Config.ofSettings (settings.layer overrides)
  let d ← readDocument store input
  let client := Client.generate c d
  match delivery with
  | .json => return .success (jsonReport client)
  | .preview => return .success (previewReport client)
  | .write keepExisting =>
    match ← (saveAll store output keepExisting client.files : m (Option SaveReport)) with
    | some saved => return .success (writtenReport c d client output saved)
    | none => stop ("failed to write to '" ++ output ++ "'")

/-- Checks a document and the client that would be generated. -/
def check (store : FileStore m) (input : String) (config : Option String) (denyWarnings : Bool) :
    Step m Outcome := do
  let settings ← readSettings store config
  let d ← readDocument store input
  let client := Client.generate (.ofSettings settings) d
  let code := if denyWarnings && client.warningCount != 0 then 1 else 0
  return ⟨code, checkReport input d client⟩

def tags (store : FileStore m) (input : String) (quiet : Bool) : Step m Outcome := do
  return .success (tagsReport quiet (← readDocument store input))

def init (store : FileStore m) (output : String) (force : Bool) : Step m Outcome := do
  let taken ← (store.isTaken output : m Bool)
  if taken && !force then stop (output ++ " already exists (use --force to overwrite)")
  else if ← (store.write output settingsTemplate : m Bool) then
    return .success ⟨["Created " ++ output, "", "Next steps:",
      "  apigen generate openapi.yaml"], []⟩
  else stop ("Failed to write " ++ output)

def perform (store : FileStore m) : Request → Step m Outcome
  | .generate input config output delivery overrides =>
    generate store input config output delivery overrides
  | .check input config denyWarnings => check store input config denyWarnings
  | .tags input quiet => tags store input quiet
  | .init output force => init store output force
  | .version => return .success ⟨[versionLine], []⟩

def run (store : FileStore m) (args : List String) : m Outcome := do
  match request args with
  | .error .usage => return .misuse
  | .error .help => return .success ⟨["usage: apigen <COMMAND>"], []⟩
  | .ok r =>
    match ← (perform store r).run with
    | .ok outcome => return outcome
    | .error outcome => return outcome

end

end OpenApiClient.Command
