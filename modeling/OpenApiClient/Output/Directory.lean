import OpenApiClient.Output.File

/-!
# Directories

A directory is a finite map from places to files and folders. Paths are walked step by step, and
every step but the last must lead into a folder. Writing a file makes the folders on the way to it;
it fails, and changes no file, if a file stands in the way or a folder in the place of the file.

Links and permissions are left out: a place is what the steps of its path make it, as no step
follows a link, and nothing fails because of who reads or writes.

Programs that read and write files are given a `FileStore`, so that the same program runs on a
directory as a value and on the real one.
-/

namespace OpenApiClient

inductive Entry where
  | file (content : String)
  | folder
  deriving DecidableEq, Repr

/-- A place, by the names on the way to it from the directory. Places outside begin with steps
upward or with the root. -/
abbrev Place := List String

namespace Place

def root : Place := ["/"]

def up (p : Place) : Place :=
  match p.getLast? with
  | none => [".."]
  | some name =>
    if p = root then root else if name = ".." then p ++ [".."] else p.dropLast

def step (p : Place) (s : String) : Place :=
  if s.isEmpty || s == "." then p else if s = ".." then p.up else p ++ [s]

/-- Whether a place is the directory itself, a place above it or the root, all of which are
folders. -/
def isAbove (p : Place) : Bool :=
  p == root || p.all (· == "..")

def isInside (p : Place) : Bool :=
  p.head?.all fun s => s != ".." && s != "/"

end Place

def stepsOf (path : String) : Place × List String :=
  match Text.splitString '/' path with
  | "" :: s :: rest => (Place.root, s :: rest)
  | steps => ([], steps)

/-- Files and folders by their places. -/
structure Directory where
  entries : List (Place × Entry)
  deriving DecidableEq, Repr

namespace Directory

def empty : Directory := ⟨[]⟩

/-- What is found at a place, if anything. -/
def entry? (d : Directory) (p : Place) : Option Entry :=
  if p.isAbove then some .folder else d.entries.lookup p

def isFolder (d : Directory) (p : Place) : Bool :=
  d.entry? p == some .folder

def put (p : Place) (e : Entry) (d : Directory) : Directory :=
  ⟨(p, e) :: d.entries.filter fun (q, _) => q ≠ p⟩

/-- The place that steps lead to; all but the last must lead into folders. -/
def locate? (d : Directory) : Place → List String → Option Place
  | p, [] => some p
  | p, s :: rest => if d.isFolder p then locate? d (p.step s) rest else none

/-- What is found at a path, if anything. -/
def find? (d : Directory) (path : String) : Option Entry :=
  let (start, steps) := stepsOf path
  (d.locate? start steps).bind d.entry?

def read? (d : Directory) (path : String) : Option String :=
  match d.find? path with
  | some (.file content) => some content
  | _ => none

/-- Whether a file or a folder can have a name: it is no step within or above a folder, and has at
most 255 bytes and no NUL. -/
def isName (s : String) : Bool :=
  !s.isEmpty && s != "." && s != ".." && s.utf8ByteSize ≤ 255 && !s.toList.contains '\x00'

/-- Makes folders at all places that steps lead to, as far as that goes. The last of these places is
given if nothing stands in the way. -/
def makeFolders : Place → List String → Directory → Option Place × Directory
  | p, [], d => (some p, d)
  | p, s :: rest, d =>
    let q := p.step s
    match d.entry? q with
    | some .folder => makeFolders q rest d
    | some (.file _) => (none, d)
    | none => if isName s then makeFolders q rest (d.put q .folder) else (none, d)

/-- The steps that lead into the folder of a path: all but the last one that leads anywhere. -/
def folderSteps (steps : List String) : List String :=
  (steps.reverse.dropWhile fun s => s.isEmpty || s == ".").tail.reverse

/-- Writes a file, and tells whether that succeeded. Folders that were made for a file stay even if
the file cannot be written. -/
def write (path content : String) (d : Directory) : Bool × Directory :=
  let (start, steps) := stepsOf path
  let name := steps.getLast?.getD ""
  match makeFolders start (folderSteps steps) d with
  | (none, d) => (false, d)
  | (some folder, d) =>
    let place := folder ++ [name]
    if isName name && !d.isFolder place then (true, d.put place (.file content)) else (false, d)

def ofFiles (files : List (String × String)) : Directory :=
  files.foldl (fun d (path, content) => (d.write path content).2) empty

/-- The files in a directory with their paths, in the order of the paths. -/
def files (d : Directory) : List (String × String) :=
  (d.entries.filterMap fun (p, e) =>
    match e with
    | .file content => if p.isInside then some (Text.joinStrings "/" p, content) else none
    | .folder => none).mergeSort fun a b => decide (a.1 ≤ b.1)

end Directory

/-! ## Stores of files -/

/-- What programs can do with files. -/
structure FileStore (m : Type → Type) where
  /-- The text of a file, if it can be read. -/
  read? : String → m (Option String)
  /-- Whether there is anything at a path. -/
  isTaken : String → m Bool
  /-- Writes a file and tells whether that succeeded. -/
  write : String → String → m Bool

def Directory.store : FileStore (StateM Directory) where
  read? path := return (← get).read? path
  isTaken path := return ((← get).find? path).isSome
  write path content := modifyGet fun d => d.write path content

/-- What became of a file that was to be written. -/
inductive Saved where
  | written
  /-- Something was there already and was kept. -/
  | kept
  | failed
  deriving DecidableEq, Repr

def Saved.name : Saved → String
  | written => "written"
  | kept => "skipped"
  | failed => "error"

/-- Writes a generated file below a folder, unless something is there that is to be kept. -/
def GeneratedFile.save {m : Type → Type} [Monad m] (store : FileStore m) (base : String)
    (keepExisting : Bool) (f : GeneratedFile) : m Saved := do
  let path := f.target base
  if keepExisting then
    if ← store.isTaken path then return .kept
  if ← store.write path f.content then return .written else return .failed

/-- The paths of files that were written and of those that were kept. -/
structure SaveReport where
  written : List String
  kept : List String
  deriving DecidableEq, Repr

/-- Writes generated files one after another, up to the first that cannot be written. -/
def saveAll {m : Type → Type} [Monad m] (store : FileStore m) (base : String)
    (keepExisting : Bool) : List GeneratedFile → m (Option SaveReport)
  | [] => return some ⟨[], []⟩
  | f :: rest => do
    match ← f.save store base keepExisting with
    | .failed => return none
    | .written => do
      let report ← saveAll store base keepExisting rest
      return report.map fun r => { r with written := f.path :: r.written }
    | .kept => do
      let report ← saveAll store base keepExisting rest
      return report.map fun r => { r with kept := f.path :: r.kept }

end OpenApiClient
