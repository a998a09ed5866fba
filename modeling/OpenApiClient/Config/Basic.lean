import OpenApiClient.NameStyle
import OpenApiClient.Text.Blank

/-!
# Configurations

A configuration fixes everything that a user can choose about generated code. What a user gives is
`Settings`, in which every choice may be left open. Settings are stacked, later ones over earlier
ones, and what is still open in the end takes the default.
-/

namespace OpenApiClient

inductive Language where
  | typeScript
  | javaScript
  deriving DecidableEq, Repr

namespace Language

def name : Language → String
  | typeScript => "typescript"
  | javaScript => "javascript"

def extension : Language → String
  | typeScript => "ts"
  | javaScript => "js"

def names : List (String × Language) :=
  [typeScript, javaScript].map fun l => (l.name, l)

def ofUserText? (s : String) : Except String Language :=
  match Text.lowercaseString s with
  | "typescript" | "ts" => .ok typeScript
  | "javascript" | "js" => .ok javaScript
  | _ => .error ("unknown language '" ++ s ++ "', expected 'typescript' or 'javascript'")

end Language

inductive ExportStyle where
  /-- Each by its name. -/
  | named
  /-- All in one object. -/
  | default
  deriving DecidableEq, Repr

namespace ExportStyle

def name : ExportStyle → String
  | named => "named"
  | default => "default"

def names : List (String × ExportStyle) :=
  [named, default].map fun s => (s.name, s)

def ofUserText? (s : String) : Except String ExportStyle :=
  match Text.lowercaseString s with
  | "named" => .ok named
  | "default" => .ok default
  | _ => .error ("unknown export style '" ++ s ++ "', expected 'named' or 'default'")

end ExportStyle

def NameStyle.names : List (String × NameStyle) :=
  NameStyle.all.map fun s => (s.name, s)

/-! ## Configurations and settings -/

structure Config where
  language : Language
  /-- The groups that are generated; all if there are none. -/
  outputTags : List String
  /-- The groups that are not generated. -/
  excludeTags : List String
  functionNaming : NameStyle
  typeNaming : NameStyle
  generateIndex : Bool
  generateUtils : Bool
  separateTypes : Bool
  useAsync : Bool
  includeComments : Bool
  exportStyle : ExportStyle
  /-- The line at the top of every module. -/
  importTemplate : String
  /-- Where the request function is imported from if the template is blank. -/
  requestUtilPath : String
  deriving DecidableEq, Repr

/-- The configuration when nothing is chosen. -/
def Config.standard : Config where
  language := .typeScript
  outputTags := []
  excludeTags := []
  functionNaming := .camel
  typeNaming := .pascal
  generateIndex := true
  generateUtils := true
  separateTypes := true
  useAsync := true
  includeComments := true
  exportStyle := .named
  importTemplate := "import \x7b request \x7d from '../utils/request';"
  requestUtilPath := "../utils/request"

/-- The choices that a user made. -/
structure Settings where
  language : Option Language := none
  outputTags : Option (List String) := none
  excludeTags : Option (List String) := none
  functionNaming : Option NameStyle := none
  typeNaming : Option NameStyle := none
  generateIndex : Option Bool := none
  generateUtils : Option Bool := none
  separateTypes : Option Bool := none
  useAsync : Option Bool := none
  includeComments : Option Bool := none
  exportStyle : Option ExportStyle := none
  importTemplate : Option String := none
  requestUtilPath : Option String := none
  deriving DecidableEq, Repr

/-- Settings with later ones over them. -/
def Settings.layer (below above : Settings) : Settings where
  language := above.language.or below.language
  outputTags := above.outputTags.or below.outputTags
  excludeTags := above.excludeTags.or below.excludeTags
  functionNaming := above.functionNaming.or below.functionNaming
  typeNaming := above.typeNaming.or below.typeNaming
  generateIndex := above.generateIndex.or below.generateIndex
  generateUtils := above.generateUtils.or below.generateUtils
  separateTypes := above.separateTypes.or below.separateTypes
  useAsync := above.useAsync.or below.useAsync
  includeComments := above.includeComments.or below.includeComments
  exportStyle := above.exportStyle.or below.exportStyle
  importTemplate := above.importTemplate.or below.importTemplate
  requestUtilPath := above.requestUtilPath.or below.requestUtilPath

namespace Config

/-- The configuration with the choices of a user. -/
def merge (c : Config) (s : Settings) : Config where
  language := s.language.getD c.language
  outputTags := s.outputTags.getD c.outputTags
  excludeTags := s.excludeTags.getD c.excludeTags
  functionNaming := s.functionNaming.getD c.functionNaming
  typeNaming := s.typeNaming.getD c.typeNaming
  generateIndex := s.generateIndex.getD c.generateIndex
  generateUtils := s.generateUtils.getD c.generateUtils
  separateTypes := s.separateTypes.getD c.separateTypes
  useAsync := s.useAsync.getD c.useAsync
  includeComments := s.includeComments.getD c.includeComments
  exportStyle := s.exportStyle.getD c.exportStyle
  importTemplate := s.importTemplate.getD c.importTemplate
  requestUtilPath := s.requestUtilPath.getD c.requestUtilPath

/-- The configuration of settings, with the defaults for what is left open. -/
def ofSettings (s : Settings) : Config :=
  standard.merge s

/-- The line at the top of every module: the template unless it is blank. -/
def importLine (c : Config) : String :=
  if Text.isBlank c.importTemplate then
    "import \x7b request \x7d from '" ++ c.requestUtilPath ++ "';"
  else c.importTemplate

end Config

end OpenApiClient
