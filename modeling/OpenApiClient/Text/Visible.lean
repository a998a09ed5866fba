import OpenApiClient.Text.PrintableData

/-!
# Showing a text in a message

A text that a message quotes is written so that every character of it can be seen: between double
quotes, with the quote, the backslash and the usual controls escaped by a letter, and every other
character that is not visible by itself written as its code point.
-/

namespace OpenApiClient.Text

def isVisible (c : Char) : Bool :=
  let n := c.toNat
  if n < 0x7F then 0x20 ≤ n else !inRanges invisibleRanges n && !inRanges extendRanges n

def showChar (c : Char) : List Char :=
  if c = '\x00' then ['\\', '0']
  else if c = '\t' then ['\\', 't']
  else if c = '\r' then ['\\', 'r']
  else if c = '\n' then ['\\', 'n']
  else if c = '\\' then ['\\', '\\']
  else if c = '"' then ['\\', '"']
  else if isVisible c then [c]
  else ['\\', 'u', '\x7b'] ++ Nat.toDigits 16 c.toNat ++ ['\x7d']

def showText (s : String) : String :=
  String.ofList ('"' :: s.toList.flatMap showChar ++ ['"'])

end OpenApiClient.Text
