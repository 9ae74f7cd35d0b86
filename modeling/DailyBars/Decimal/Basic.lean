import DailyBars.Text.Digits

/-!
# Decimals

Numbers of at most 96 bits with up to 28 digits after the point. The number of digits after the
point is part of the value: `1.50` and `1.5` are different decimals. Zero has no sign.
-/

namespace DailyBars

/-- A decimal: `± mantissa / 10 ^ scale`. -/
structure Decimal where
  negative : Bool
  mantissa : Nat
  scale : Nat
  mantissa_lt : mantissa < Nat.pow 2 96 := by decide
  scale_le : scale ≤ 28 := by decide
  zero_sign : mantissa = 0 → negative = false := by decide
  deriving DecidableEq

namespace Decimal

/-- The greatest mantissa. -/
def maxMantissa : Nat := Nat.pow 2 96 - 1

/-- The greatest number of digits after the point. -/
def maxScale : Nat := 28

/-- Zero, without digits after the point. -/
def zero : Decimal := { negative := false, mantissa := 0, scale := 0 }

instance : Inhabited Decimal := ⟨zero⟩

/-- The decimal with the given sign, mantissa and scale, if both are within their bounds. The sign
of a zero is dropped. -/
def make? (negative : Bool) (mantissa scale : Nat) : Option Decimal :=
  if h : mantissa < Nat.pow 2 96 ∧ scale ≤ 28 then
    some { negative := negative && mantissa != 0, mantissa, scale, mantissa_lt := h.1,
           scale_le := h.2, zero_sign := by rintro rfl; simp }
  else none

/-- A natural number as a decimal, if it fits. -/
def ofNat? (n : Nat) : Option Decimal := make? false n 0

/-- The digits with the point `scale` digits before the end. -/
def digits (d : Decimal) : List Char :=
  let ds := Text.paddedDigits (d.scale + 1) d.mantissa
  let body :=
    if d.scale = 0 then ds
    else ds.take (ds.length - d.scale) ++ '.' :: ds.drop (ds.length - d.scale)
  if d.negative then '-' :: body else body

/-- The decimal in plain notation, all its digits after the point kept. -/
def text (d : Decimal) : String := String.ofList d.digits

end Decimal

end DailyBars
