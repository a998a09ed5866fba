import OpenApiClient.Text.Basic

/-!
# Pointers to named components

A reference points at a component by its section and its name. In the name a tilde is written `~0`
and a slash `~1`; reading undoes the second first, so that `~01` is a tilde and a one.
-/

namespace OpenApiClient.Pointer

/-- A part of a pointer with its escapes undone. -/
def unescape (cs : List Char) : List Char :=
  Text.replace '~' ['0'] ['~'] (Text.replace '~' ['1'] ['/'] cs)

def escape (name : List Char) : List Char :=
  name.flatMap fun c => if c = '~' then ['~', '0'] else if c = '/' then ['~', '1'] else [c]

/-- A part of a pointer with its escapes undone, as a string. -/
def unescapeString (s : String) : String :=
  String.ofList (unescape s.toList)

def name (pointer : String) : String :=
  String.ofList (unescape (Text.afterLast '/' pointer.toList))

/-- The beginning of the pointers into a section of the components. -/
def sectionHead (sectionName : String) : List Char :=
  ("#/components/" ++ sectionName ++ "/").toList

def nameIn? (sectionName pointer : String) : Option String :=
  (Text.afterHead? (sectionHead sectionName) pointer.toList).map fun cs =>
    String.ofList (unescape cs)

end OpenApiClient.Pointer
