import DailyBars.Binary64

/-!
# Doubles in decimal notation

The double nearest to `digits * 10 ^ exponent`. Exponents that lead far beyond the doubles, in
either direction, are told from the number of digits alone.
-/

namespace DailyBars

namespace Binary64

/-- The double nearest to `digits * 10 ^ exponent`; `none` beyond the greatest double. -/
def ofScientific (digits : Nat) (exponent : Int) : Option Binary64 :=
  let top : Int := (Text.digitsOf digits).length + exponent
  if digits = 0 || top < -330 then some zero
  else if 310 < top then none
  else if exponent < 0 then ofRatio digits (Nat.pow 10 exponent.natAbs)
  else ofNat (digits * Nat.pow 10 exponent.natAbs)

/-- The nearest natural number, a half away from zero; a negative number counts as zero, and what is
greater than `most` as `most`. -/
def toNat (x : Binary64) (most : Nat) : Nat :=
  let (num, den) := x.ratio
  if x.negative then 0 else min most ((2 * num + den) / (2 * den))

end Binary64

/-- The parts of a number in decimal notation. -/
structure DecimalNotation where
  negative : Bool
  whole : List Char
  fraction : List Char
  exponent : Int
  deriving DecidableEq, Repr

namespace DecimalNotation

/-- The double that is written; `none` beyond the greatest double. -/
def value? (n : DecimalNotation) : Option Binary64 :=
  (Binary64.ofScientific (Text.valueOfDigits 0 (n.whole ++ n.fraction))
    (n.exponent - n.fraction.length)).map fun x => { x with negative := n.negative }

/-- Reads the whole of a text as an exponent, which may be missing. -/
def readExponent? : List Char → Option Int
  | [] => some 0
  | e :: cs =>
    if e = 'e' || e = 'E' then
      let (negative, ds) := Text.readSign cs
      (Text.readNat? ds).map fun n => if negative then -(n : Int) else n
    else none

/-- Reads the whole of a text as a number: digits before the point or after it, or both. -/
def ofChars? (cs : List Char) : Option DecimalNotation :=
  let (negative, cs) := Text.readSign cs
  let (whole, rest) := Text.spanDigits cs
  let (fraction, rest) := match rest with
    | '.' :: rest => Text.spanDigits rest
    | rest => ([], rest)
  if whole.isEmpty && fraction.isEmpty then none
  else (readExponent? rest).map fun e => ⟨negative, whole, fraction, e⟩

end DecimalNotation

end DailyBars
