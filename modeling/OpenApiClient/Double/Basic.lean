/-!
# Double-precision numbers

A double is kept as its 64 bits, so that two doubles are equal exactly when they are written alike.
All arithmetic on them is exact arithmetic on naturals followed by one rounding to the nearest
double, ties to the even one.
-/

namespace OpenApiClient

/-- A binary64 number, by its bits: sign, eleven bits of exponent, fifty-two of mantissa. -/
structure Double where
  bits : UInt64
  deriving DecidableEq, Repr, Inhabited

namespace Double

/-- The bits without the sign. -/
def magnitude (d : Double) : Nat :=
  d.bits.toNat % Nat.pow 2 63

/-- Whether the sign bit is set. -/
def isNegative (d : Double) : Bool :=
  Nat.pow 2 63 ≤ d.bits.toNat

def infiniteMagnitude : Nat :=
  2047 * Nat.pow 2 52

def isFinite (d : Double) : Bool :=
  d.magnitude < infiniteMagnitude

def isNaN (d : Double) : Bool :=
  infiniteMagnitude < d.magnitude

def ofMagnitude (negative : Bool) (magnitude : Nat) : Double :=
  ⟨UInt64.ofNat (if negative then Nat.pow 2 63 + magnitude else magnitude)⟩

def zero : Double := ofMagnitude false 0
def infinity : Double := ofMagnitude false infiniteMagnitude
def nan : Double := ofMagnitude false (infiniteMagnitude + Nat.pow 2 51)

/-- The same number with the other sign. -/
def neg (d : Double) : Double :=
  ofMagnitude (!d.isNegative) d.magnitude

/-- The exponent `q` of a finite double, whose absolute value is `significand d * 2 ^ q`. -/
def exponent (d : Double) : Int :=
  (max (d.magnitude / Nat.pow 2 52) 1 : Nat) - 1075

/-- The integer `m` of a finite double, whose absolute value is `m * 2 ^ exponent d`. -/
def significand (d : Double) : Nat :=
  if d.magnitude < Nat.pow 2 52 then d.magnitude
  else Nat.pow 2 52 + d.magnitude % Nat.pow 2 52

/-- Whether two doubles are the same number: both zeros are one number, and so are all NaNs. -/
def sameNumber (a b : Double) : Bool :=
  a = b || (a.magnitude = 0 && b.magnitude = 0) || (a.isNaN && b.isNaN)

/-! ## Rounding -/

/-- The nearest natural to a quotient, ties to the even one. -/
def roundDiv (num den : Nat) : Nat :=
  let q := num / den
  let r := num % den
  if 2 * r < den then q
  else if den < 2 * r then q + 1
  else if q % 2 = 0 then q else q + 1

def scaled (num den : Nat) (q : Int) : Nat × Nat :=
  if 0 ≤ q then (num, den * Nat.pow 2 q.toNat) else (num * Nat.pow 2 (-q).toNat, den)

/-- The nearest double to a quotient of naturals; infinity if the quotient is too large. -/
def ofRatio (num den : Nat) : Double :=
  if num = 0 then zero
  else
    let guess : Int := (num.log2 : Int) - (den.log2 : Int) - 53
    let (n, d) := scaled num den guess
    let q := max (if n / d < Nat.pow 2 53 then guess else guess + 1) (-1074)
    let (n, d) := scaled num den q
    let m := roundDiv n d
    let magnitude :=
      if m < Nat.pow 2 52 then m else (q + 1075).toNat * Nat.pow 2 52 + (m - Nat.pow 2 52)
    ofMagnitude false (min magnitude infiniteMagnitude)

def ofNat (n : Nat) : Double :=
  ofRatio n 1

/-- The nearest double to `digits * 10 ^ exponent`. Exponents beyond every double are cut off, so
that no huge power is computed. -/
def ofDecimal (digits : Nat) (exponent : Int) : Double :=
  if 0 ≤ exponent then
    if digits = 0 then zero
    else if 400 < exponent then infinity
    else ofNat (digits * Nat.pow 10 exponent.toNat)
  else
    let size : Int := digits.log2
    if size - 3 * (-exponent) < -1200 then zero
    else ofRatio digits (Nat.pow 10 (-exponent).toNat)

/-- The absolute value of a finite double as a quotient. -/
def ratio (d : Double) : Nat × Nat :=
  if 0 ≤ d.exponent then (d.significand * Nat.pow 2 d.exponent.toNat, 1)
  else (d.significand, Nat.pow 2 (-d.exponent).toNat)

/-- The nearest double to the product of two absolute values. -/
def mulAbs (a b : Double) : Double :=
  let (an, ad) := a.ratio
  let (bn, bd) := b.ratio
  ofRatio (an * bn) (ad * bd)

/-- The nearest double to the quotient of two absolute values. -/
def divAbs (a b : Double) : Double :=
  let (an, ad) := a.ratio
  let (bn, bd) := b.ratio
  ofRatio (an * bd) (ad * bn)

end Double

end OpenApiClient
