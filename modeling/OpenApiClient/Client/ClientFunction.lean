import OpenApiClient.Client.RequestShape
import OpenApiClient.Config.Basic

/-!
# Client functions

The function that calls an operation: it takes the request, passes it to the request function and
returns the response. In a typed language the function has types; in an untyped one its comment
names them.
-/

namespace OpenApiClient

/-- How the functions of a module are annotated. -/
inductive Typing where
  /-- By types. -/
  | typed
  /-- By comments that name the module of the types. -/
  | commented (typesModule : String)
  deriving DecidableEq, Repr

namespace PlannedOperation

def functionName (op : PlannedOperation) : String :=
  Code.safeName op.names.function

/-- The lines of a comment that say what an operation does: the summary and the description, if they
differ, or the name of the function. -/
def proseLines (op : PlannedOperation) : List String :=
  let summary := Text.trimString op.operation.summary
  let description := Text.trimString op.operation.description
  if summary.isEmpty then
    [if description.isEmpty then op.functionName else description]
  else if description.isEmpty || description == summary then [summary]
  else [summary, description]

/-- The lines of a comment that name the types of a function. -/
def typeLines (op : PlannedOperation) (shape : RequestShape) : Typing → List String
  | .typed => []
  | .commented typesModule =>
    let typeRef := fun name => "import('" ++ typesModule ++ "')." ++ name
    (if shape.isEmpty then []
      else
        ["@param \x7b" ++ typeRef op.names.requestType ++ "\x7d " ++ argumentName]) ++
      ["@returns \x7bPromise<" ++ typeRef op.names.responseType ++ ">\x7d"]

def functionDoc (op : PlannedOperation) (shape : RequestShape) (t : Typing) : String :=
  Text.joinStrings "\n"
    (op.proseLines ++ (if op.operation.deprecated then ["@deprecated"] else []) ++
      op.typeLines shape t)

/-- How the call of the request function begins. -/
def callHead (op : PlannedOperation) : Typing → String
  | .typed => "request<" ++ op.names.responseType ++ ">("
  | .commented _ => "request("

def functionBody (op : PlannedOperation) (shape : RequestShape) (useAsync : Bool)
    (t : Typing) : List Code.Fragment :=
  let call := fun (opening : String) =>
    Code.Properties.wrapped (opening ++ op.callHead t) ");" (shape.call op.endpoint)
  if useAsync then [call "const response = await ", .line "return response;"]
  else [call "return "]

/-- The argument of a function, unless there is nothing to pass. -/
def functionArguments (op : PlannedOperation) (shape : RequestShape) (t : Typing) :
    List Code.Argument :=
  if shape.isEmpty then []
  else
    match t with
    | .typed => [⟨argumentName, some op.names.requestType⟩]
    | .commented _ => [⟨argumentName, none⟩]

/-- The result of a function, if it is written. -/
def functionResult (op : PlannedOperation) : Typing → Option String
  | .typed => some ("Promise<" ++ op.names.responseType ++ ">")
  | .commented _ => none

def clientFunction (c : Config) (t : Typing) (op : PlannedOperation) (shape : RequestShape) :
    Code.Function where
  name := op.functionName
  doc := if c.includeComments then some (op.functionDoc shape t) else none
  isExported := c.exportStyle == .named
  isAsync := c.useAsync
  isArrow := c.useAsync
  arguments := op.functionArguments shape t
  result := op.functionResult t
  body := op.functionBody shape c.useAsync t

end PlannedOperation

end OpenApiClient
