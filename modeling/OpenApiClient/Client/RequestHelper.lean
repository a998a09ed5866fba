import OpenApiClient.Code.SourceFile
import OpenApiClient.Config.Basic
import OpenApiClient.Output.File

/-!
# The request helper

The file with the request function that all client functions call. The function is a stub that the
user replaces; what is fixed is its signature.
-/

namespace OpenApiClient

/-- The comment at the top of generated files. -/
def generatedHeader : String :=
  "This file is generated by apigen. Do not edit it by hand."

/-- The header of a generated file, if comments are wanted. -/
def Config.header (c : Config) : List String :=
  if c.includeComments then [generatedHeader] else []

def Language.fileKind : Language → FileKind
  | typeScript => .typeScript
  | javaScript => .javaScript

structure SourceUnit where
  path : String
  source : Code.SourceFile
  kind : FileKind
  deriving Repr

def SourceUnit.file (u : SourceUnit) : GeneratedFile :=
  ⟨u.path, u.source.text Code.standardUnit, u.kind⟩

namespace RequestHelper

def path (l : Language) : String :=
  "utils/request." ++ l.extension

/-- What the stub says about itself. -/
def stubDoc : String :=
  "Send a request. Replace this stub with your HTTP client."

def stubBody (useAsync : Bool) : String :=
  let error := "new Error(\"request is not implemented\")"
  if useAsync then "throw " ++ error ++ ";" else "return Promise.reject(" ++ error ++ ");"

def methodType : String :=
  "\"GET\" | \"POST\" | \"PUT\" | \"DELETE\" | \"PATCH\""

/-- The type of the argument of the request function. -/
def configDeclaration : Code.Declaration where
  name := "RequestConfig"
  doc := none
  definition := .interface
    [{ key := "url", type := "string" }, { key := "method", type := methodType },
      { key := "params", type := "Record<string, any>", isOptional := true },
      { key := "data", type := "any", isOptional := true },
      { key := "headers", type := "Record<string, string>", isOptional := true }]

def responseDeclaration : Code.Declaration where
  name := "ApiResponse<T = any>"
  doc := none
  definition := .interface
    [{ key := "data", type := "T" }, { key := "status", type := "number" },
      { key := "statusText", type := "string" }]

def typedFunction (c : Config) : Code.Function where
  name := "request<T = any>"
  doc := if c.includeComments then some stubDoc else none
  isAsync := c.useAsync
  arguments := [⟨"config", some "RequestConfig"⟩]
  result := some "Promise<T>"
  body := [.line (stubBody c.useAsync)]

/-- The comment that stands for the type of the argument. -/
def configComment : String :=
  Text.joinStrings "\n"
    ["@typedef \x7bObject\x7d RequestConfig",
      "@property \x7bstring\x7d url",
      "@property \x7b" ++ methodType ++ "\x7d method",
      "@property \x7bRecord<string, any>\x7d [params]",
      "@property \x7bany\x7d [data]",
      "@property \x7bRecord<string, string>\x7d [headers]"]

def untypedFunction (c : Config) : Code.Function where
  name := "request"
  doc := some (Text.joinStrings "\n"
    ((if c.includeComments then [stubDoc] else []) ++
      ["@template T", "@param \x7bRequestConfig\x7d config", "@returns \x7bPromise<T>\x7d"]))
  isAsync := c.useAsync
  arguments := [⟨"config", none⟩]
  body := [.line (stubBody c.useAsync)]

def items (c : Config) : Language → List Code.Item
  | .typeScript =>
    [.declaration configDeclaration, .declaration responseDeclaration,
      .function (typedFunction c)]
  | .javaScript => [.code [.doc configComment], .function (untypedFunction c)]

def unit (c : Config) (l : Language) : SourceUnit :=
  ⟨path l, { header := c.header, items := items c l }, l.fileKind⟩

end RequestHelper

end OpenApiClient
