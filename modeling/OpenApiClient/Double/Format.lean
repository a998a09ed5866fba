import OpenApiClient.Double.Shortest

/-!
# Writing doubles

Every text of a double has the shortest digits that read back. Where the point stands, when an
exponent is written and how, is one `Layout` for each place where doubles are written.
-/

namespace OpenApiClient.Double

/-- How the digits of a double are laid out. With the point after `k` digits, `0 < k` at most
`wholeLimit` and `k` above `-leadingZeros` are written without an exponent. -/
structure Layout where
  /-- The largest number of digits before the point. -/
  wholeLimit : Int
  /-- How many places the point may stand before the first digit, plus one. -/
  leadingZeros : Int
  /-- The sign written before an exponent that is not negative. -/
  plus : String

/-- Documents write numbers positionally from 1e-5 up to 1e16, and otherwise with a signed
exponent. -/
def Layout.document : Layout := ⟨16, 5, "+"⟩

/-- Mapping keys write numbers as documents do, but leave the plus sign of an exponent out. -/
def Layout.key : Layout := ⟨16, 5, ""⟩

/-- Settings are reported without exponents. -/
def Layout.positional : Layout := ⟨400, 400, "+"⟩

def positionalText (digits : List Char) (k : Int) : List Char :=
  if k ≤ 0 then ['0', '.'] ++ List.replicate (-k).toNat '0' ++ digits
  else
    let k := k.toNat
    if digits.length ≤ k then digits ++ List.replicate (k - digits.length) '0' ++ ['.', '0']
    else digits.take k ++ '.' :: digits.drop k

def exponentText (layout : Layout) (digits : List Char) (k : Int) : List Char :=
  let whole :=
    match digits with
    | [] => []
    | [d] => [d]
    | d :: rest => d :: '.' :: rest
  let sign := if k - 1 < 0 then ['-'] else layout.plus.toList
  whole ++ 'e' :: sign ++ (toString (k - 1).natAbs).toList

/-- The digits of a finite absolute value, laid out. -/
def finiteText (layout : Layout) (d : Double) : List Char :=
  let (n, e) := d.shortest
  let digits := (toString n).toList
  let k := if n = 0 then 1 else (digits.length : Int) + e
  if -layout.leadingZeros < k && k ≤ layout.wholeLimit then positionalText digits k
  else exponentText layout digits k

def text (layout : Layout) (d : Double) : String :=
  if d.isNaN then "NaN"
  else
    let body := if d.isFinite then finiteText layout d else ['i', 'n', 'f']
    String.ofList (if d.isNegative then '-' :: body else body)

end OpenApiClient.Double
