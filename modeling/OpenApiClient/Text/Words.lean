/-!
# Words of a name

A name such as `getPetsID`, `pet-store` or `HTTPServer` is made of words. The words are runs of
ASCII letters and digits; within a run a new word starts at an upper-case letter that follows a
lower-case letter or a digit (a hump), and at the last upper-case letter of an acronym when a
lower-case letter follows it. Every other character separates words and belongs to none.
-/

namespace OpenApiClient.Text

/-- Whether the word that `a` belongs to ends before its neighbour `b`, where `after` is what
follows `b`. -/
def isWordEnd (a b : Char) (after : List Char) : Bool :=
  b.isUpper && (a.isLower || a.isDigit || (a.isUpper && after.head?.any Char.isLower))

/-- Puts a character in front of the first word. -/
def extendFirst (c : Char) : List (List Char) → List (List Char)
  | [] => [[c]]
  | word :: words => (c :: word) :: words

def words : List Char → List (List Char)
  | [] => []
  | c :: rest =>
    if c.isAlphanum then
      match rest with
      | [] => [[c]]
      | d :: after =>
        if d.isAlphanum && !isWordEnd c d after then extendFirst c (words rest)
        else [c] :: words rest
    else words rest

end OpenApiClient.Text
