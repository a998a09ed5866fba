import OpenApiClient.Json.Basic
import OpenApiClient.Output.File

/-!
# Trees of files

Generated files are shown as a forest of folders and files. Files are put in one after another, and
the folders on the way to a file are made at the end of what is there already. So folders and files
stand in the order in which they were met first. Which way leads to a folder is remembered by its
path, so that no folder is looked for.
-/

namespace OpenApiClient

/-- A folder or a file. -/
inductive FileTree where
  /-- A file with the path that it was given. -/
  | file (path name content : String)
  /-- A folder with its path from the root. -/
  | folder (path name : String) (children : List FileTree)
  deriving Repr, Inhabited

namespace FileTree

def name : FileTree → String
  | file _ name _ | folder _ name _ => name

def path : FileTree → String
  | file path _ _ | folder path _ _ => path

def pathIn (parent name : String) : String :=
  if parent.isEmpty then name else parent ++ "/" ++ name

/-- Puts a node at the end of the folder that a place leads to, and gives its position there. A
place is a list of positions, from the roots down; if one of them is out of range or leads to a
file, there is nothing to put the node in. -/
def append? (node : FileTree) : List Nat → List FileTree → Option (List FileTree × Nat)
  | [], forest => some (forest ++ [node], forest.length)
  | i :: place, forest =>
    match forest[i]? with
    | some (.folder path name children) =>
      (append? node place children).map fun (children, j) =>
        (forest.set i (.folder path name children), j)
    | _ => none

/-- A forest that is being built, and the places of its folders by their paths. -/
structure Builder where
  forest : List FileTree
  places : List (String × List Nat)

namespace Builder

/-- Nothing is built yet. -/
def empty : Builder := ⟨[], []⟩

/-- Goes down to a folder, from the one of the path `parent` at a place, and makes the folders that
are not there. -/
def descend? : List String → String → List Nat → Builder → Option (List Nat × Builder)
  | [], _, place, b => some (place, b)
  | dir :: dirs, parent, place, b =>
    let path := pathIn parent dir
    match Entries.get? path b.places with
    | some known => descend? dirs path known b
    | none =>
      (append? (.folder path dir []) place b.forest).bind fun (forest, i) =>
        descend? dirs path (place ++ [i]) ⟨forest, (path, place ++ [i]) :: b.places⟩

/-- Puts a file into a forest. A path without segments has no place. -/
def addFile? (b : Builder) (f : GeneratedFile) : Option Builder :=
  let segments := pathSegments f.path
  match segments.getLast? with
  | none => some b
  | some name =>
    (descend? segments.dropLast "" [] b).bind fun (place, b) =>
      (append? (.file f.path name f.content) place b.forest).map fun (forest, _) =>
        { b with forest }

def addFiles? (b : Builder) (files : List GeneratedFile) : Option Builder :=
  files.foldlM addFile? b

end Builder

def ofFiles (files : List GeneratedFile) : List FileTree :=
  ((Builder.empty.addFiles? files).map Builder.forest).getD []

mutual

def fileCount : FileTree → Nat
  | .file _ _ _ => 1
  | .folder _ _ children => fileCounts children
termination_by structural t => t

def fileCounts : List FileTree → Nat
  | [] => 0
  | t :: rest => t.fileCount + fileCounts rest
termination_by structural ts => ts

end

mutual

def toJson : FileTree → Json
  | .file path name content =>
    .obj [("id", .str path), ("name", .str name), ("path", .str path), ("type", .str "file"),
      ("content", .str content)]
  | .folder path name children =>
    .obj [("id", .str path), ("name", .str name), ("path", .str path), ("type", .str "folder"),
      ("children", .arr (toJsonAll children))]
termination_by structural t => t

def toJsonAll : List FileTree → List Json
  | [] => []
  | t :: rest => t.toJson :: toJsonAll rest
termination_by structural ts => ts

end

end FileTree

end OpenApiClient
