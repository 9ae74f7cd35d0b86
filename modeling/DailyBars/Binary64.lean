import DailyBars.Text.Digits

/-!
# Double precision numbers

The finite doubles as exact values `± significand · 2 ^ exponent`, the double nearest to a quotient
of natural numbers, and two ways of writing a double: with the fewest digits that read back, and
with a fixed number of places. All of it is integer arithmetic.
-/

namespace DailyBars

/-- A finite double: `± significand * 2 ^ exponent`. -/
structure Binary64 where
  negative : Bool
  significand : Nat
  exponent : Int
  deriving DecidableEq, Repr

namespace Binary64

/-- Zero. -/
def zero : Binary64 := ⟨false, 0, 0⟩

/-- Rounds `num / den` to the nearest integer, a tie to the even one. -/
def divRoundEven (num den : Nat) : Nat :=
  let q := num / den
  let r := num % den
  if 2 * r < den then q
  else if den < 2 * r then q + 1
  else if q % 2 = 0 then q else q + 1

/-- `num / den` scaled by `2 ^ (-e)`, as a quotient. -/
def scaled (num den : Nat) (e : Int) : Nat × Nat :=
  if e < 0 then (num * Nat.pow 2 e.natAbs, den) else (num, den * Nat.pow 2 e.natAbs)

/-- The least exponent of a double. -/
def minExponent : Int := -1074

/-- The greatest exponent of a double whose significand has all 53 bits. -/
def maxExponent : Int := 971

/-- The double nearest to `num / den`, a tie to the even significand; `none` beyond the greatest
double. -/
def ofRatio (num den : Nat) : Option Binary64 :=
  if num = 0 || den = 0 then some zero
  else
    let guess : Int := (Nat.log2 num : Int) - (Nat.log2 den : Int) - 53
    let (a, b) := scaled num den guess
    let e := max minExponent (if Nat.pow 2 53 ≤ a / b then guess + 1 else guess)
    let (a, b) := scaled num den e
    let q := divRoundEven a b
    let (q, e) := if q = Nat.pow 2 53 then (Nat.pow 2 52, e + 1) else (q, e)
    if maxExponent < e then none else some ⟨false, q, e⟩

/-- The double nearest to a natural number. -/
def ofNat (n : Nat) : Option Binary64 := ofRatio n 1

/-- The magnitude of a double as a quotient. -/
def ratio (x : Binary64) : Nat × Nat := scaled x.significand 1 (-x.exponent)

/-- The product, rounded to the nearest double. -/
def mul (x y : Binary64) : Option Binary64 :=
  let (a, b) := x.ratio
  let (c, d) := y.ratio
  (ofRatio (a * c) (b * d)).map fun r => { r with negative := x.negative != y.negative }

/-- The quotient, rounded to the nearest double. -/
def div (x y : Binary64) : Option Binary64 :=
  let (a, b) := x.ratio
  let (c, d) := y.ratio
  (ofRatio (a * d) (b * c)).map fun r => { r with negative := x.negative != y.negative }

/-- The sum of two magnitudes, rounded to the nearest double. -/
def addMagnitudes (x y : Binary64) : Option Binary64 :=
  let (a, b) := x.ratio
  let (c, d) := y.ratio
  ofRatio (a * d + c * b) (b * d)

/-- The power of ten `10 ^ k` below or at `num / den` and above a tenth of it, found by walking from
an estimate upwards. -/
def decimalMagnitude (num den : Nat) (k : Int) : Nat → Int
  | 0 => k
  | fuel + 1 =>
    let above := if k < 0 then den ≤ num * Nat.pow 10 k.natAbs else den * Nat.pow 10 k.natAbs ≤ num
    if above then decimalMagnitude num den (k + 1) fuel else k

/-- The least `k` with `num / den < 10 ^ k`, for a positive quotient. -/
def digitsBeforePoint (num den : Nat) : Int :=
  let estimate : Int := ((Nat.log2 num : Int) - (Nat.log2 den : Int) - 1) * 30103 / 100000 - 1
  decimalMagnitude num den estimate 8

/-- The half-way points to the neighbouring doubles, as quotients over one denominator, with the
value between them: `(lower, value, upper, denominator)`. Below a power of two the lower neighbour
is half as far. -/
def roundingInterval (x : Binary64) : Nat × Nat × Nat × Nat :=
  let m := x.significand
  let narrow := m = Nat.pow 2 52 && minExponent < x.exponent
  let (lo, mid, hi) := (if narrow then 4 * m - 1 else 4 * m - 2, 4 * m, 4 * m + 2)
  let e := x.exponent - 2
  if e < 0 then (lo, mid, hi, Nat.pow 2 e.natAbs)
  else (lo * Nat.pow 2 e.natAbs, mid * Nat.pow 2 e.natAbs, hi * Nat.pow 2 e.natAbs, 1)

/-- The point of the grid `10 ^ place` nearest to the value among those that read back as it. -/
def gridPoint? (x : Binary64) (place : Int) : Option Nat :=
  let (lo, mid, hi, den) := x.roundingInterval
  let up := if place < 0 then Nat.pow 10 place.natAbs else 1
  let down := if place < 0 then 1 else Nat.pow 10 place.natAbs
  let (lo, mid, hi, unit) := (lo * up, mid * up, hi * up, den * down)
  let closed := x.significand % 2 = 0
  let readsBack (c : Nat) : Bool :=
    let v := c * unit
    if closed then lo ≤ v && v ≤ hi else lo < v && v < hi
  let c := mid / unit
  match readsBack c, readsBack (c + 1) with
  | true, true => some (if mid - c * unit ≤ (c + 1) * unit - mid then c else c + 1)
  | true, false => some c
  | false, true => some (c + 1)
  | false, false => none

/-- The shortest decimal that reads back as `x`: its digits as a number and the power of ten of the
last one. Grids of one digit, of two and so on are tried up to seventeen, which always suffice. -/
def shortestFrom (x : Binary64) (top : Int) (digits : Nat) : Nat → Nat × Int
  | 0 => ((gridPoint? x (top - 17)).getD 0, top - 17)
  | fuel + 1 =>
    match gridPoint? x (top - digits) with
    | some c => (c, top - digits)
    | none => shortestFrom x top (digits + 1) fuel

/-- The digits of the shortest decimal that reads back as `x`, and the power of ten of the last. A
value just below a power of ten may be found as ten units of the one-digit grid below it. -/
def shortest (x : Binary64) : Nat × Int :=
  if x.significand = 0 then (0, 0)
  else
    let (num, den) := x.ratio
    let (c, place) := shortestFrom x (digitsBeforePoint num den) 1 17
    if c % 10 = 0 then (c / 10, place + 1) else (c, place)

/-- Digits with a point before the last `places` of them, at least one digit in front. -/
def withPoint (digits : Nat) (places : Nat) : List Char :=
  let ds := Text.paddedDigits (places + 1) digits
  if places = 0 then ds
  else ds.take (ds.length - places) ++ '.' :: ds.drop (ds.length - places)

/-- Puts the sign of `x` in front. -/
def signed (x : Binary64) (body : List Char) : String :=
  String.ofList (if x.negative then '-' :: body else body)

/-- The double in positional notation with the fewest digits, whole numbers without a point. -/
def positional (x : Binary64) : String :=
  let (c, place) := x.shortest
  x.signed <|
    if 0 ≤ place then Text.digitsOf (c * Nat.pow 10 place.natAbs) else withPoint c place.natAbs

/-- The double with the fewest digits: with a point while at most sixteen digits stand before it and
at most four zeros after it, with an exponent otherwise. -/
def text (x : Binary64) : String :=
  let (c, place) := x.shortest
  let ds := Text.digitsOf c
  let point : Int := ds.length + place
  x.signed <|
    if c = 0 then ['0', '.', '0']
    else if 0 ≤ place ∧ point ≤ 16 then ds ++ List.replicate place.natAbs '0' ++ ['.', '0']
    else if place < 0 ∧ -5 < point ∧ point ≤ 16 then withPoint c place.natAbs
    else
      let mark := 'e' :: (Text.integerText (point - 1)).toList
      match ds with
      | [] => mark
      | [d] => d :: mark
      | d :: rest => d :: '.' :: rest ++ mark

/-- The double rounded to `places` digits after the point, a tie to the even digit. -/
def fixed (places : Nat) (x : Binary64) : String :=
  let (num, den) := x.ratio
  let body := withPoint (divRoundEven (num * Nat.pow 10 places) den) places
  String.ofList (if x.negative then '-' :: body else body)

end Binary64

end DailyBars
