import OpenApiClient.Text.Basic

/-!
# Generated files

A generated file has a path below the output folder, with slashes between its segments, and a text.
-/

namespace OpenApiClient

inductive FileKind where
  | typeScript
  | javaScript
  | json
  deriving DecidableEq, Repr

namespace FileKind

def all : List FileKind := [typeScript, javaScript, json]

def name : FileKind → String
  | typeScript => "typescript"
  | javaScript => "javascript"
  | json => "json"

end FileKind

structure GeneratedFile where
  path : String
  content : String
  kind : FileKind
  deriving DecidableEq, Repr

/-- The segments of a path that are not empty. -/
def pathSegments (path : String) : List String :=
  (Text.splitString '/' path).filter fun s => !s.isEmpty

/-- A path with one more segment, which stands alone after nothing and without another slash after
a slash. -/
def joinSegment (base segment : String) : String :=
  if base.toList.getLast?.all (· == '/') then base ++ segment else base ++ "/" ++ segment

/-- The place of a file below a folder. -/
def GeneratedFile.target (base : String) (f : GeneratedFile) : String :=
  (pathSegments f.path).foldl joinSegment base

end OpenApiClient
