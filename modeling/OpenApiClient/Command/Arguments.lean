import OpenApiClient.Config.Basic

/-!
# Arguments of the command line

The command line names a command, then its input and its options in any order. Options have long
names and some of them a letter; a value follows as the next argument, after an equals sign, or
right after the letter. Letters without values may be put together. After two dashes all arguments
are inputs.
-/

namespace OpenApiClient.Command

/-- Why nothing is run. -/
inductive Refusal where
  /-- The arguments are wrong. -/
  | usage
  /-- The user asked for help. -/
  | help
  deriving DecidableEq, Repr

/-! ## Options -/

inductive OptionKind where
  /-- It is there or not. -/
  | flag
  /-- It may be there several times. -/
  | counter
  /-- It has one value. -/
  | value
  /-- It has values each time it is there. -/
  | values
  deriving DecidableEq, Repr

def OptionKind.hasValue : OptionKind → Bool
  | value | values => true
  | flag | counter => false

def OptionKind.isRepeatable : OptionKind → Bool
  | counter | values => true
  | flag | value => false

structure OptionSpec where
  name : String
  letter : Option Char
  kind : OptionKind

inductive Token where
  | option (name : String) (value : Option String)
  | input (text : String)
  deriving DecidableEq, Repr

/-- Whether an argument looks like options, so that it is no value. -/
def looksLikeOptions (s : String) : Bool :=
  match s.toList with
  | '-' :: _ :: _ => true
  | _ => false

def nextValue : List String → Except Refusal (String × List String)
  | [] => .error .usage
  | s :: rest => if looksLikeOptions s then .error .usage else .ok (s, rest)

def findOption (specs : List OptionSpec) (isIt : OptionSpec → Bool) (isHelp : Bool) :
    Except Refusal OptionSpec :=
  if isHelp then .error .help
  else
    match specs.find? isIt with
    | some spec => .ok spec
    | none => .error .usage

/-- Understands an option with a long name, from after its dashes. -/
def longOption (specs : List OptionSpec) (body : List Char) (rest : List String) :
    Except Refusal (List Token × List String) := do
  let (name, attached) :=
    match Text.cutAt? '=' body with
    | some (name, value) => (String.ofList name, some (String.ofList value))
    | none => (String.ofList body, none)
  let spec ← findOption specs (fun s => s.name == name) (name == "help" && attached.isNone)
  match spec.kind.hasValue, attached with
  | true, some value => return ([.option name (some value)], rest)
  | true, none => do
    let (value, rest) ← nextValue rest
    return ([.option name (some value)], rest)
  | false, none => return ([.option name none], rest)
  | false, some _ => .error .usage

def letterOptions (specs : List OptionSpec) :
    List Char → List String → Except Refusal (List Token × List String)
  | [], rest => .ok ([], rest)
  | c :: more, rest => do
    let spec ← findOption specs (fun s => s.letter == some c) (c == 'h')
    if spec.kind.hasValue then
      match more with
      | [] => do
        let (value, rest) ← nextValue rest
        return ([.option spec.name (some value)], rest)
      | '=' :: value => return ([.option spec.name (some (String.ofList value))], rest)
      | value => return ([.option spec.name (some (String.ofList value))], rest)
    else do
      let (tokens, rest) ← letterOptions specs more rest
      return (.option spec.name none :: tokens, rest)

/-- Understands arguments one after another; each step takes one of them at least. -/
def tokens (specs : List OptionSpec) : Nat → List String → Except Refusal (List Token)
  | 0, _ => .ok []
  | _, [] => .ok []
  | fuel + 1, a :: rest => do
    match a.toList with
    | ['-', '-'] => return rest.map .input
    | '-' :: '-' :: body => do
      let (ts, rest) ← longOption specs body rest
      return ts ++ (← tokens specs fuel rest)
    | '-' :: c :: more => do
      let (ts, rest) ← letterOptions specs (c :: more) rest
      return ts ++ (← tokens specs fuel rest)
    | _ => return .input a :: (← tokens specs fuel rest)

def inputs (ts : List Token) : List String :=
  ts.filterMap fun t =>
    match t with
    | .input s => some s
    | .option _ _ => none

def occurrences (ts : List Token) (name : String) : Nat :=
  (ts.filter fun t =>
    match t with
    | .option n _ => n == name
    | .input _ => false).length

def valuesOf (ts : List Token) (name : String) : List String :=
  ts.filterMap fun t =>
    match t with
    | .option n value => if n == name then value else none
    | .input _ => none

def isGiven (ts : List Token) (name : String) : Bool :=
  occurrences ts name != 0

def understand (specs : List OptionSpec) (args : List String) : Except Refusal (List Token) := do
  let ts ← tokens specs args.length args
  if specs.all fun s => s.kind.isRepeatable || occurrences ts s.name ≤ 1 then return ts
  else .error .usage

/-! ## Values -/

/-- Requires a path that is not empty. -/
def asPath (s : String) : Except Refusal String :=
  if s.isEmpty then .error .usage else .ok s

def pathOption (ts : List Token) (name : String) : Except Refusal (Option String) :=
  (valuesOf ts name).head?.mapM asPath

/-- The value of an option as something that a user can name. -/
def namedOption {α : Type} (read : String → Except String α) (ts : List Token) (name : String) :
    Except Refusal (Option α) :=
  (valuesOf ts name).head?.mapM fun s =>
    match read s with
    | .ok a => .ok a
    | .error _ => .error .usage

/-- The values of an option that are separated by commas. -/
def listOption (ts : List Token) (name : String) : Option (List String) :=
  if isGiven ts name then some ((valuesOf ts name).flatMap (Text.splitString ',')) else none

def turnedOff (ts : List Token) (name : String) : Option Bool :=
  if isGiven ts name then some false else none

def oneInput (ts : List Token) : Except Refusal String :=
  match inputs ts with
  | [s] => asPath s
  | _ => .error .usage

def noInput (ts : List Token) : Except Refusal Unit :=
  if (inputs ts).isEmpty then .ok () else .error .usage

/-! ## Requests -/

inductive Delivery where
  /-- It is written to files. -/
  | write (keepExisting : Bool)
  /-- It is shown. -/
  | preview
  /-- It is printed as JSON. -/
  | json
  deriving DecidableEq, Repr

inductive Request where
  | generate (input : String) (config : Option String) (output : String) (delivery : Delivery)
      (overrides : Settings)
  | check (input : String) (config : Option String) (denyWarnings : Bool)
  | tags (input : String) (quiet : Bool)
  | init (output : String) (force : Bool)
  | version
  deriving DecidableEq, Repr

def verboseOption : OptionSpec := ⟨"verbose", some 'v', .counter⟩

def generateOptions : List OptionSpec :=
  [verboseOption, ⟨"config", some 'c', .value⟩, ⟨"output", some 'o', .value⟩,
    ⟨"dry-run", none, .flag⟩, ⟨"json", none, .flag⟩, ⟨"keep-existing", none, .flag⟩,
    ⟨"language", some 'l', .value⟩, ⟨"tags", none, .values⟩, ⟨"exclude-tags", none, .values⟩,
    ⟨"function-naming", none, .value⟩, ⟨"type-naming", none, .value⟩,
    ⟨"export-style", none, .value⟩, ⟨"inline-types", none, .flag⟩, ⟨"no-index", none, .flag⟩,
    ⟨"no-utils", none, .flag⟩, ⟨"no-async", none, .flag⟩, ⟨"no-comments", none, .flag⟩,
    ⟨"import-template", none, .value⟩]

def overrides (ts : List Token) : Except Refusal Settings := do
  let language ← namedOption Language.ofUserText? ts "language"
  let functionNaming ← namedOption NameStyle.ofUserText? ts "function-naming"
  let typeNaming ← namedOption NameStyle.ofUserText? ts "type-naming"
  let exportStyle ← namedOption ExportStyle.ofUserText? ts "export-style"
  return {
    language, functionNaming, typeNaming, exportStyle
    outputTags := listOption ts "tags"
    excludeTags := listOption ts "exclude-tags"
    separateTypes := turnedOff ts "inline-types"
    generateIndex := turnedOff ts "no-index"
    generateUtils := turnedOff ts "no-utils"
    useAsync := turnedOff ts "no-async"
    includeComments := turnedOff ts "no-comments"
    importTemplate := (valuesOf ts "import-template").head? }

/-- What is to be done with the client; showing and printing exclude each other. -/
def deliveryOf (ts : List Token) : Except Refusal Delivery :=
  match isGiven ts "json", isGiven ts "dry-run" with
  | true, true => .error .usage
  | true, false => .ok .json
  | false, true => .ok .preview
  | false, false => .ok (.write (isGiven ts "keep-existing"))

def generateRequest (args : List String) : Except Refusal Request := do
  let ts ← understand generateOptions args
  return .generate (← oneInput ts) (← pathOption ts "config")
    ((← pathOption ts "output").getD "api") (← deliveryOf ts) (← overrides ts)

def checkRequest (args : List String) : Except Refusal Request := do
  let ts ← understand
    [verboseOption, ⟨"config", some 'c', .value⟩, ⟨"deny-warnings", none, .flag⟩] args
  return .check (← oneInput ts) (← pathOption ts "config") (isGiven ts "deny-warnings")

def tagsRequest (args : List String) : Except Refusal Request := do
  let ts ← understand [verboseOption, ⟨"quiet", some 'q', .flag⟩] args
  return .tags (← oneInput ts) (isGiven ts "quiet")

/-- The file of settings that is looked for when none is named. -/
def defaultConfigFile : String := "apigen.toml"

/-- The request of the command that writes a file of settings. -/
def initRequest (args : List String) : Except Refusal Request := do
  let ts ← understand
    [verboseOption, ⟨"output", some 'o', .value⟩, ⟨"force", none, .flag⟩] args
  noInput ts
  return .init ((← pathOption ts "output").getD defaultConfigFile) (isGiven ts "force")

/-- Understands the letters before a command: whether the version is asked for. -/
def leadingLetters : List Char → Except Refusal Bool
  | [] => .ok false
  | 'v' :: rest => leadingLetters rest
  | 'V' :: _ => .ok true
  | 'h' :: _ => .error .help
  | _ => .error .usage

def request : List String → Except Refusal Request
  | [] => .error .usage
  | "generate" :: args => generateRequest args
  | "check" :: args => checkRequest args
  | "tags" :: args => tagsRequest args
  | "init" :: args => initRequest args
  | "help" :: _ => .error .help
  | "--help" :: _ => .error .help
  | "--version" :: _ => .ok .version
  | "--verbose" :: args => request args
  | a :: args => do
    match a.toList with
    | '-' :: c :: letters =>
      if ← leadingLetters (c :: letters) then return .version else request args
    | _ => .error .usage

end OpenApiClient.Command
