import OpenApiClient.Double.Basic

/-!
# Shortest digits

The shortest decimal that reads back as a given double, and of those the nearest to it. The reals
that round to a double form an interval, whose ends belong to it when its significand is even. For
one, two, ... seventeen digits the two neighbours of the number on that decimal grid are tried: if
a point of a grid lies in the interval, one of these two does, and seventeen digits always
suffice.
-/

namespace OpenApiClient.Double

/-- A finite double and the ends of its interval, all as multiples of `1 / den`. -/
structure Interval where
  low : Nat
  value : Nat
  high : Nat
  den : Nat
  closed : Bool

/-- The interval of reals that round to a positive finite double. Below a power of two the
neighbour is half as far as above it. -/
def interval (d : Double) : Interval :=
  let m := d.significand
  let q := d.exponent
  let near := m = Nat.pow 2 52 && q != -1074
  let up := Nat.pow 2 q.toNat
  let den := 4 * Nat.pow 2 (-q).toNat
  ⟨(4 * m - (if near then 1 else 2)) * up, 4 * m * up, (4 * m + 2) * up, den, m % 2 = 0⟩

def Interval.holds (i : Interval) (n : Nat) (e : Int) : Bool :=
  let x := n * Nat.pow 10 e.toNat * i.den
  let s := Nat.pow 10 (-e).toNat
  if i.closed then i.low * s ≤ x && x ≤ i.high * s else i.low * s < x && x < i.high * s

/-- The better of the two neighbours of the value on the grid of multiples of `10 ^ e`, if one of
them lies in the interval. -/
def Interval.onGrid? (i : Interval) (e : Int) : Option Nat :=
  let num := i.value * Nat.pow 10 (-e).toNat
  let den := i.den * Nat.pow 10 e.toNat
  let down := num / den
  let up := down + 1
  match i.holds down e && down != 0, i.holds up e with
  | true, true =>
    let r := num % den
    if 2 * r < den then some down
    else if den < 2 * r then some up
    else if down % 2 = 0 then some down else some up
  | true, false => some down
  | false, true => some up
  | false, false => none

def digitCount (n : Nat) : Nat :=
  (Nat.toDigits 10 n).length

def leadingPower (num den : Nat) : Int :=
  if den ≤ num then (digitCount (num / den) : Int) - 1
  else
    let p := digitCount (den / num)
    if den ≤ num * Nat.pow 10 (p - 1) then -((p - 1 : Nat) : Int) else -(p : Int)

/-- Tries grids that leave `count`, `count + 1`, ... digits before the cut. -/
def searchGrids (i : Interval) (power : Int) : Nat → Nat → Nat × Int
  | _, 0 => (i.value / i.den, 0)
  | count, fuel + 1 =>
    let e := power - count
    match i.onGrid? e with
    | some n => (n, e)
    | none => searchGrids i power (count + 1) fuel

/-- Moves the zeros at the end of a number into its exponent; `fuel` bounds how many. -/
def dropZeros : Nat → Nat → Int → Nat × Int
  | 0, n, e => (n, e)
  | fuel + 1, n, e => if n != 0 && n % 10 = 0 then dropZeros fuel (n / 10) (e + 1) else (n, e)

/-- The shortest digits `n` and the exponent `e` such that `n * 10 ^ e` reads back as the absolute
value of a finite double; `n` does not end in a zero unless it is zero. -/
def shortest (d : Double) : Nat × Int :=
  if d.magnitude = 0 then (0, 0)
  else
    let i := interval d
    let (n, e) := searchGrids i (leadingPower i.value i.den) 0 19
    dropZeros 20 n e

end OpenApiClient.Double
