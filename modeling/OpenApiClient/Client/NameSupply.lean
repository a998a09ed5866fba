import OpenApiClient.NameStyle

/-!
# Supplies of unique names

A supply knows the names that are in use. Whoever claims a name that is in use already gets the
first one that is free with a number from two on after it. As the numbered names all differ, one of
as many candidates as there are used names and one more is free, which bounds the search.
-/

namespace OpenApiClient

/-- The first number from `n` on whose name is not used, if it is among `fuel` numbers; else the
number after them. -/
def firstFree (used : List String) (nameOf : Nat → String) : Nat → Nat → Nat
  | 0, n => n
  | fuel + 1, n =>
    if used.contains (nameOf n) then firstFree used nameOf fuel (n + 1) else n

/-- The number that makes a name free: the first from two on. -/
def freeNumber (used : List String) (nameOf : Nat → String) : Nat :=
  firstFree used nameOf used.length 2

/-- The names that are in use, formatted in a style each. -/
structure NameSupply where
  used : List String
  deriving DecidableEq, Repr

/-- A name that was claimed: the text to format, and whether it differs from what was asked for. -/
structure Claimed where
  base : String
  renamed : Bool
  deriving DecidableEq, Repr

namespace NameSupply

def empty : NameSupply := ⟨[]⟩

def numbered (base : String) (n : Nat) : String :=
  base ++ "_" ++ toString n

def contains (s : NameSupply) (name : String) : Bool :=
  s.used.contains name

def claim (base : String) (style : NameStyle) (s : NameSupply) : Claimed × NameSupply :=
  if s.contains (style.format base) then
    let nameOf := fun n => style.format (numbered base n)
    let n := freeNumber s.used nameOf
    (⟨numbered base n, true⟩, ⟨nameOf n :: s.used⟩)
  else (⟨base, false⟩, ⟨style.format base :: s.used⟩)

end NameSupply

end OpenApiClient
