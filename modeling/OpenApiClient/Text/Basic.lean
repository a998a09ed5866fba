/-!
# Texts as lists of characters

Everything the library does to a text is defined on `List Char`, where each rule is a recursion on
the characters; `String` is only the form in which texts are stored. This module holds the rules
that are not about any one format: measuring in bytes, cutting at a character, cutting into lines,
and replacing one piece by another.
-/

namespace OpenApiClient.Text

def byteLength (cs : List Char) : Nat :=
  cs.foldr (fun c bytes => c.utf8Size + bytes) 0

@[simp] theorem byteLength_nil : byteLength [] = 0 := rfl

@[simp] theorem byteLength_cons (c : Char) (cs : List Char) :
    byteLength (c :: cs) = c.utf8Size + byteLength cs := rfl

@[simp] theorem byteLength_append (cs ds : List Char) :
    byteLength (cs ++ ds) = byteLength cs + byteLength ds := by
  induction cs with
  | nil => simp
  | cons c cs ih =>
    simp only [List.cons_append, byteLength_cons, ih]
    omega

/-! ## Cutting and joining -/

/-- The pieces between the occurrences of a separator; there is one more piece than separators. -/
def splitOn (sep : Char) : List Char → List (List Char)
  | [] => [[]]
  | c :: rest =>
    if c = sep then [] :: splitOn sep rest
    else
      match splitOn sep rest with
      | [] => [[c]]
      | piece :: pieces => (c :: piece) :: pieces

/-- There is always a first piece. -/
theorem splitOn_ne_nil (sep : Char) (cs : List Char) : splitOn sep cs ≠ [] := by
  induction cs with
  | nil => simp [splitOn]
  | cons c cs ih =>
    by_cases hc : c = sep
    · simp [splitOn, hc]
    · simp only [splitOn, if_neg hc]
      split <;> simp

/-- The pieces with a separator text between each two. -/
def join (sep : List Char) : List (List Char) → List Char
  | [] => []
  | [piece] => piece
  | piece :: pieces => piece ++ sep ++ join sep pieces

/-- Joining the pieces of a text with the separator gives the text back. -/
theorem join_splitOn (sep : Char) (cs : List Char) : join [sep] (splitOn sep cs) = cs := by
  induction cs with
  | nil => rfl
  | cons c cs ih =>
    rcases h : splitOn sep cs with _ | ⟨piece, pieces⟩
    · exact absurd h (splitOn_ne_nil sep cs)
    · rw [h] at ih
      by_cases hc : c = sep
      · subst hc
        simp [splitOn, h, join, ih]
      · cases pieces with
        | nil => simp_all [splitOn, join]
        | cons next pieces => simp_all [splitOn, join]

/-- A line without the carriage return that stood before its line feed. -/
def dropCarriageReturn (line : List Char) : List Char :=
  if line.getLast? = some '\r' then line.dropLast else line

/-- The lines of a text. A line ends at a line feed, with or without a carriage return before it;
what follows the last line feed is a line only if it is not empty. -/
def lines (cs : List Char) : List (List Char) :=
  let pieces := splitOn '\n' cs
  let last := pieces.getLast?.getD []
  pieces.dropLast.map dropCarriageReturn ++ (if last.isEmpty then [] else [last])

/-- What is left of a text after a given beginning, if it begins so. -/
def afterHead? : List Char → List Char → Option (List Char)
  | [], cs => some cs
  | _ :: _, [] => none
  | h :: head, c :: cs => if h = c then afterHead? head cs else none

/-- A text begins with `head` and goes on with `rest` exactly if it is the one before the other. -/
theorem afterHead?_eq_some_iff {head cs rest : List Char} :
    afterHead? head cs = some rest ↔ cs = head ++ rest := by
  induction head generalizing cs with
  | nil => simp [afterHead?, eq_comm]
  | cons h head ih =>
    cases cs with
    | nil => simp [afterHead?]
    | cons c cs =>
      by_cases hc : h = c
      · simp [afterHead?, hc, ih]
      · simp [afterHead?, hc, Ne.symm hc]

/-- The text with every occurrence of `c :: more` replaced, from left to right and without
overlaps. -/
def replace (c : Char) (more new : List Char) (cs : List Char) : List Char :=
  match cs with
  | [] => []
  | x :: xs =>
    if x = c then
      match h : afterHead? more xs with
      | some rest =>
        have : rest.length < xs.length + 1 := by
          have := congrArg List.length (afterHead?_eq_some_iff.mp h)
          simp only [List.length_append] at this
          omega
        new ++ replace c more new rest
      | none => x :: replace c more new xs
    else x :: replace c more new xs
termination_by cs.length

def isInfixOf (piece : List Char) : List Char → Bool
  | [] => piece.isEmpty
  | c :: cs => (afterHead? piece (c :: cs)).isSome || isInfixOf piece cs

/-- The part before the first occurrence of a character and the part after it. -/
def cutAt? (sep : Char) : List Char → Option (List Char × List Char)
  | [] => none
  | c :: rest =>
    if c = sep then some ([], rest)
    else (cutAt? sep rest).map fun (before, after) => (c :: before, after)

/-- The cut is at the first occurrence: the part before it has none. -/
theorem cutAt?_eq_some_iff {sep : Char} {cs before after : List Char} :
    cutAt? sep cs = some (before, after) ↔ cs = before ++ sep :: after ∧ sep ∉ before := by
  induction cs generalizing before with
  | nil => simp [cutAt?]
  | cons c cs ih =>
    by_cases hc : c = sep
    · subst hc
      cases before with
      | nil => simp [cutAt?, eq_comm]
      | cons b before =>
        simp only [cutAt?, if_true, Option.some.injEq, Prod.mk.injEq, reduceCtorEq, false_and,
          List.cons_append, List.cons.injEq, List.mem_cons, not_or, false_iff, not_and]
        rintro ⟨rfl, -⟩ h
        exact absurd rfl h
    · cases before with
      | nil => simp [cutAt?, hc]
      | cons b before =>
        simp only [cutAt?, if_neg hc, Option.map_eq_some_iff, Prod.exists, Prod.mk.injEq,
          List.cons.injEq, List.cons_append, List.mem_cons, not_or]
        constructor
        · rintro ⟨x, y, h, ⟨rfl, rfl⟩, rfl⟩
          obtain ⟨rfl, hx⟩ := ih.mp h
          exact ⟨⟨rfl, rfl⟩, fun h => hc h.symm, hx⟩
        · rintro ⟨⟨rfl, h⟩, -, hb⟩
          exact ⟨before, after, ih.mpr ⟨h, hb⟩, ⟨rfl, rfl⟩, rfl⟩

/-- The part after the last occurrence of a character, or the whole text if it has none. -/
def afterLast (sep : Char) (cs : List Char) : List Char :=
  (splitOn sep cs).getLast?.getD []

/-! ## The same rules on strings -/

/-- A text with every occurrence of a non-empty piece replaced. -/
def replaceString (old new s : String) : String :=
  match old.toList with
  | [] => s
  | c :: more => String.ofList (replace c more new.toList s.toList)

/-- The lines of a text, see `lines`. -/
def linesOf (s : String) : List String :=
  (lines s.toList).map String.ofList

def splitString (sep : Char) (s : String) : List String :=
  (splitOn sep s.toList).map String.ofList

def joinStrings (sep : String) : List String → String
  | [] => ""
  | [s] => s
  | s :: rest => s ++ sep ++ joinStrings sep rest

def spaces (n : Nat) : String :=
  String.ofList (List.replicate n ' ')

end OpenApiClient.Text
