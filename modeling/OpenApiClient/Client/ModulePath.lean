import OpenApiClient.Text.Blank
import OpenApiClient.Text.Lowercase
import OpenApiClient.Text.Script
import OpenApiClient.Text.Slug

/-!
# Module paths

The operations of a tag form a module of the generated client. A tag in Latin letters gives a file
named by its slug; a tag with East Asian characters keeps its spelling and becomes a folder with an
index file in it. Here are the file of a module, how others import it, and the way from it back to
the root.
-/

namespace OpenApiClient

/-- The place of a module: its stem is the name of the file, or of the folder if it is nested. -/
structure ModulePath where
  stem : String
  nested : Bool
  deriving DecidableEq, Repr

namespace ModulePath

/-- Whether a character cannot stand in the name of a folder. -/
def isUnsafe (c : Char) : Bool :=
  Text.isBlankChar c || ['<', '>', ':', '"', '/', '\\', '|', '?', '*'].contains c

def folderStem (tag : String) : String :=
  String.ofList ((Text.trim tag.toList).map fun c => if isUnsafe c then '_' else c)

/-- The name of the file of a tag, without its extension. -/
def fileStem (tag : String) : String :=
  match Text.earlySlug '-' (Text.lowercase tag.toList) with
  | [] => "group"
  | stem => String.ofList stem

def ofTag (tag : String) : ModulePath :=
  if Text.hasEastAsian tag then ⟨folderStem tag, true⟩ else ⟨fileStem tag, false⟩

/-- The place with a number, for a tag whose own place is taken. -/
def numbered (m : ModulePath) (n : Nat) : ModulePath :=
  { m with stem := m.stem ++ (if m.nested then "_" else "-") ++ toString n }

def file (m : ModulePath) (extension : String) : String :=
  m.stem ++ (if m.nested then "/index." else ".") ++ extension

/-- How the module is imported at the root, with or without an extension. -/
def specifier (m : ModulePath) (extension : Option String) : String :=
  "./" ++ m.stem ++ (if m.nested then "/index" else "") ++
    (match extension with
      | some e => "." ++ e
      | none => "")

def toRoot (m : ModulePath) : String :=
  if m.nested then "../" else "./"

end ModulePath

end OpenApiClient
