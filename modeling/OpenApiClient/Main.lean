import OpenApiClient.Command.Run

/-!
# The program

The outer layer: the real files as a `FileStore`, and printing.
-/

namespace OpenApiClient.Main

def succeeds (action : IO Unit) : IO Bool := do
  try
    action
    return true
  catch _ => return false

/-- The folder that a path lies in, unless it is the one at hand. -/
def parent? (path : String) : Option String :=
  let segments := (Text.splitString '/' path).dropLast
  if segments.isEmpty then none else some (Text.joinStrings "/" segments)

def store : FileStore IO where
  read? path := do
    try
      return some (← IO.FS.readFile path)
    catch _ => return none
  isTaken path := do
    try
      let _ ← IO.FS.realPath path
      return true
    catch _ => return false
  write path content := succeeds do
    match parent? path with
    | some folder => IO.FS.createDirAll folder
    | none => pure ()
    IO.FS.writeFile path content

end OpenApiClient.Main

def main (args : List String) : IO UInt32 := do
  let outcome ← OpenApiClient.Command.run OpenApiClient.Main.store args
  (← IO.getStdout).putStr outcome.outputText
  (← IO.getStderr).putStr outcome.messageText
  return outcome.code.toUInt32
