import OpenApiClient.Text.Basic

/-!
# Blank characters

The characters with the Unicode property White_Space, and the rules that depend on them: trimming,
telling a blank text, and cutting a text into its blank-separated pieces.
-/

namespace OpenApiClient.Text

/-- Whether a character has the property White_Space. -/
def isBlankChar (c : Char) : Bool :=
  let n := c.toNat
  (9 ≤ n && n ≤ 13) || n == 0x20 || n == 0x85 || n == 0xA0 || n == 0x1680 ||
    (0x2000 ≤ n && n ≤ 0x200A) || n == 0x2028 || n == 0x2029 || n == 0x202F || n == 0x205F ||
    n == 0x3000

/-- The text without the blank characters at its beginning. -/
def trimStart (cs : List Char) : List Char :=
  cs.dropWhile isBlankChar

def trimEnd (cs : List Char) : List Char :=
  (cs.reverse.dropWhile isBlankChar).reverse

/-- The text without the blank characters at both ends. -/
def trim (cs : List Char) : List Char :=
  trimEnd (trimStart cs)

/-- The non-empty pieces of a text between blank characters. -/
def blankSeparated : List Char → List (List Char)
  | [] => []
  | c :: rest =>
    if isBlankChar c then blankSeparated rest
    else
      match rest with
      | [] => [[c]]
      | d :: _ =>
        if isBlankChar d then [c] :: blankSeparated rest
        else
          match blankSeparated rest with
          | [] => [[c]]
          | piece :: pieces => (c :: piece) :: pieces

/-- A text without the blank characters at both ends. -/
def trimString (s : String) : String :=
  String.ofList (trim s.toList)

/-- Whether a text consists of blank characters only. -/
def isBlank (s : String) : Bool :=
  s.toList.all isBlankChar

end OpenApiClient.Text
