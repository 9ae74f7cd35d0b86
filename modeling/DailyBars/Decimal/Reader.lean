import DailyBars.Decimal.Basic

/-!
# Reading decimals

Plain notation first: a sign, digits with at most one point, and `_` as a separator once a digit has
been seen. Digits after the point that a decimal cannot keep are dropped, the first of them rounding
the rest half up. A text that is not in plain notation may still be a plain number followed by `e`
and an exponent.
-/

namespace DailyBars.Decimal

/-- How far the reading of a number has come. -/
structure Scan where
  /-- The digits so far, as a number. -/
  mantissa : Nat := 0
  /-- The digits after the point so far. -/
  scale : Nat := 0
  /-- Whether the point has been read. -/
  point : Bool := false
  /-- Whether a digit has been read. -/
  digits : Bool := false
  deriving DecidableEq, Repr

/-- Ends the number before the character `next`, which cannot be kept: a digit rounds half up and a
separator does not count. The characters after it must be digits. -/
def roundOff (negative : Bool) (s : Scan) (next : Char) (rest : List Char) : Option Decimal :=
  if !rest.all Text.isDigit then none
  else if next = '_' then make? negative s.mantissa s.scale
  else if !Text.isDigit next then none
  else if Text.digitValue next < 5 then make? negative s.mantissa s.scale
  else if s.mantissa + 1 ≤ maxMantissa then make? negative (s.mantissa + 1) s.scale
  else if s.scale = 0 then none
  else make? negative ((s.mantissa + 5) / 10) (s.scale - 1)

/-- Reads the characters after the sign. -/
def scan (negative : Bool) (s : Scan) : List Char → Option Decimal
  | [] => if s.digits then make? negative s.mantissa s.scale else none
  | c :: cs =>
    if s.point && s.digits && maxScale ≤ s.scale then roundOff negative s c cs
    else if Text.isDigit c then
      let m := s.mantissa * 10 + Text.digitValue c
      if m ≤ maxMantissa then
        scan negative ⟨m, if s.point then s.scale + 1 else 0, s.point, true⟩ cs
      else if s.point then roundOff negative s c cs
      else none
    else if c = '.' && !s.point then scan negative { s with point := true } cs
    else if c = '_' && s.digits then scan negative s cs
    else none

/-- Reads plain notation. -/
def ofPlain? : List Char → Option Decimal
  | '-' :: cs => scan true {} cs
  | '+' :: cs => scan false {} cs
  | cs => scan false {} cs

/-- The exponent after an `e`: a number of 32 bits, with a plus sign or without. -/
def exponent? (cs : List Char) : Option Nat := (Text.readUnsigned? cs).filter (· < UInt32.size)

/-- The decimal times `10 ^ e`, exactly: the point moves right, and a mantissa that has to grow
becomes a whole number. -/
def scaleUp? (d : Decimal) (e : Nat) : Option Decimal :=
  if e ≤ d.scale then make? d.negative d.mantissa (d.scale - e)
  else if maxScale < e then none
  else make? d.negative (d.mantissa * Nat.pow 10 (e - d.scale)) 0

/-- The decimal over `10 ^ e`: the point moves left. -/
def scaleDown? (d : Decimal) (e : Nat) : Option Decimal :=
  if maxScale < e then none else make? d.negative d.mantissa (d.scale + e)

/-- Reads a plain number followed by `e` or `E` and an exponent. -/
def ofScientific? (cs : List Char) : Option Decimal :=
  let isMark (c : Char) : Bool := c = 'e' || c = 'E'
  match cs.span (fun c => !isMark c) with
  | (base, _ :: exponent) =>
    match ofPlain? base with
    | none => none
    | some d =>
      match exponent with
      | '-' :: ds => (exponent? ds).bind (scaleDown? d)
      | ds => (exponent? ds).bind (scaleUp? d)
  | (_, []) => none

/-- Reads a decimal in plain or scientific notation. -/
def ofText? (s : String) : Option Decimal :=
  match ofPlain? s.toList with
  | some d => some d
  | none => ofScientific? s.toList

end DailyBars.Decimal
