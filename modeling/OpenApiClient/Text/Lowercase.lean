import OpenApiClient.Text.CaseData

/-!
# Lower-casing

The full lower-case mapping of a text: every letter moves to its lower-case form, a dotted capital
I becomes an i followed by a combining dot, and a capital sigma takes its final form at the end of
a word. The end of a word is told from the nearest characters on both sides that are not
Case_Ignorable.
-/

namespace OpenApiClient.Text

/-- The lower-case form of a character outside ASCII that does not depend on its neighbours. -/
def lowerOther (c : Char) : List Char :=
  if c = 'İ' then ['i', '\u0307']
  else
    let n := c.toNat
    match lowerRuns.find? fun r => r.first ≤ n && n ≤ r.last && (n - r.first) % r.step == 0 with
    | some r => [Char.ofNat (n + r.distance).toNat]
    | none => [c]

/-- Whether the nearest character that is not Case_Ignorable is Cased. -/
def meetsCased (cs : List Char) : Bool :=
  match cs.dropWhile fun c => inRanges caseIgnorableRanges c.toNat with
  | [] => false
  | c :: _ => inRanges casedRanges c.toNat

/-- The lower-case form of a character between the text before it, nearest first, and the text
after it. -/
def lowerChar (before : List Char) (c : Char) (after : List Char) : List Char :=
  if c.toNat < 0x80 then [c.toLower]
  else if c = 'Σ' then
    if meetsCased before && !meetsCased after then ['ς'] else ['σ']
  else lowerOther c

/-- The lower-case form of a text that follows `before`, nearest first. -/
def lowercaseAfter (before : List Char) : List Char → List Char
  | [] => []
  | c :: after => lowerChar before c after ++ lowercaseAfter (c :: before) after

/-- The lower-case form of a text. -/
def lowercase (cs : List Char) : List Char :=
  lowercaseAfter [] cs

/-- The lower-case form of a string. -/
def lowercaseString (s : String) : String :=
  String.ofList (lowercase s.toList)

end OpenApiClient.Text
