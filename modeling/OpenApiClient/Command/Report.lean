import OpenApiClient.Client.Generate
import OpenApiClient.Document.Select
import OpenApiClient.Json.Writer
import OpenApiClient.Output.Directory

/-!
# Reports

What the commands print. A report is two lists of texts, for the output and for the messages; each
text is followed by an end of line.
-/

namespace OpenApiClient.Command

structure Report where
  output : List String
  messages : List String := []
  deriving DecidableEq, Repr

def counted (n : Nat) (noun : String) : String :=
  toString n ++ " " ++ noun ++ (if n = 1 then "" else "s")

def titleLine (d : Document) : String :=
  d.info.title ++ " v" ++ d.info.version

/-- What is said about warnings, if there are any: an empty line and a message. -/
def warningReport (count : Nat) : Report :=
  if count = 0 then ⟨[], []⟩
  else ⟨[""], [counted count "warning" ++ " (run `apigen check` for details)"]⟩

/-- The paths of the files that are no modules of groups. -/
def supportPaths (l : Language) : List String :=
  ["index." ++ l.extension, "utils/request." ++ l.extension, "types.ts", "types.d.ts"]

def moduleCount (l : Language) (client : Client) : Nat :=
  (client.files.filter fun f => !(supportPaths l).contains f.path).length

/-- A line that divides what is shown. -/
def divider (title : String) : String :=
  "── " ++ title ++ " ──"

def writtenReport (c : Config) (d : Document) (client : Client) (folder : String)
    (saved : SaveReport) : Report :=
  let kept :=
    if saved.kept.isEmpty then []
    else ["", "Kept existing:"] ++ saved.kept.map fun p => "  - " ++ p
  let warnings := warningReport client.warningCount
  ⟨[titleLine d, "", "Language: " ++ c.language.name,
      "Modules: " ++ toString (moduleCount c.language client), "Generated: " ++ folder] ++
    (saved.written.map fun p => "  + " ++ p) ++ kept ++ warnings.output, warnings.messages⟩

def previewReport (client : Client) : Report :=
  let warnings := warningReport client.warningCount
  ⟨(client.files.flatMap fun f => [divider f.path, f.content]) ++
    [divider "Summary", toString client.files.length ++ " files would be generated"] ++
    warnings.output, warnings.messages⟩

def fileToJson (f : GeneratedFile) : Json :=
  .obj [("path", .str f.path), ("content", .str f.content), ("kind", .str f.kind.name)]

def jsonReport (client : Client) : Report :=
  ⟨[Json.pretty 0 (.obj [("files", .arr (client.files.map fileToJson)),
    ("structure", .arr (FileTree.toJsonAll client.structureOf))])], []⟩

def diagnosticText (d : Diagnostic) : String :=
  d.severity.name ++ ": " ++ d.message ++
    (match d.location with
      | some location => "\n  --> " ++ location
      | none => "")

def operationCount (counts : Counts) (tag : String) : Nat :=
  (counts.byTag.lookup tag).getD 0

/-- The report on a document and on the client that would be generated from it. -/
def checkReport (input : String) (d : Document) (client : Client) : Report :=
  let counts := d.counts
  let warnings := client.diagnostics.filter Diagnostic.isWarning
  let infos := client.diagnostics.filter fun x => !x.isWarning
  let tags := d.availableTags
  let tagLines :=
    if tags.isEmpty then []
    else
      ["", "Tags (" ++ toString tags.length ++ "):"] ++
        tags.map fun t =>
          "  - " ++ t ++ " (" ++ counted (operationCount counts t) "operation" ++ ")"
  ⟨infos.map diagnosticText ++ (if client.diagnostics.isEmpty then [] else [""]) ++
    ["✓ " ++ input ++ " is valid", "",
      "  " ++ titleLine d ++ " (OpenAPI " ++ d.version ++ ")",
      "  " ++ counted counts.paths "path" ++ ", " ++ counted counts.operations "operation"] ++
    (counts.byMethod.map fun (m, n) => "  " ++ m.wireName ++ ": " ++ toString n) ++ tagLines ++
    ["", "Files (" ++ toString client.files.length ++ "):"] ++
    client.files.map fun f => "  - " ++ f.path, warnings.map diagnosticText⟩

def padRight (width : Nat) (s : String) : String :=
  s ++ Text.spaces (width - s.length)

/-- The list of the tags of a document, with the numbers of their operations unless only the names
are wanted. -/
def tagsReport (quiet : Bool) (d : Document) : Report :=
  let counts := d.counts
  ⟨d.availableTags.map fun t =>
    if quiet then t else padRight 24 t ++ " " ++ toString (operationCount counts t), []⟩

end OpenApiClient.Command
