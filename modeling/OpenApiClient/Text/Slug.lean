/-!
# Slugs

A slug of a text has its runs of lower-case ASCII letters and digits, with a separator in place of
everything else between them. It is written in one walk over the text, in two ways: a separator is
written late, in front of a run, if something else has been passed since the run before; or it is
written early, behind a run, never twice in a row, and what is too much at the end is taken away
again. Ids of operations are written the first way, and stems of files the second.
-/

namespace OpenApiClient.Text

def isSlugChar (c : Char) : Bool :=
  c.isLower || c.isDigit

/-- A slug that is being written, and whether something else has been passed since the last run. -/
structure Late where
  text : List Char
  pending : Bool

def Late.step (sep : Char) (s : Late) (c : Char) : Late :=
  if isSlugChar c then
    ⟨s.text ++ (if s.pending && !s.text.isEmpty then [sep] else []) ++ [c], false⟩
  else { s with pending := true }

/-- The slug of a text whose separators are written in front of runs. -/
def lateSlug (sep : Char) (cs : List Char) : List Char :=
  (cs.foldl (Late.step sep) ⟨[], false⟩).text

def earlyStep (sep : Char) (text : List Char) (c : Char) : List Char :=
  if isSlugChar c then text ++ [c]
  else if !text.isEmpty && text.getLast? != some sep then text ++ [sep]
  else text

/-- The slug of a text whose separators are written behind runs. -/
def earlySlug (sep : Char) (cs : List Char) : List Char :=
  ((cs.foldl (earlyStep sep) []).reverse.dropWhile (· == sep)).reverse

end OpenApiClient.Text
