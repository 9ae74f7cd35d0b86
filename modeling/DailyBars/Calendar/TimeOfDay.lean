import DailyBars.Text.Digits

/-!
# Times of day

A wall-clock time with nanoseconds. A leap second is kept as the second before it with a fraction
of a second or more.
-/

namespace DailyBars

/-- A time of day: seconds since midnight, and nanoseconds; a fraction of a whole second or more is
a leap second. -/
structure TimeOfDay where
  seconds : Nat
  nanos : Nat
  inDay : seconds < 86400 := by decide
  inSecond : nanos < 2000000000 := by decide
  deriving DecidableEq

namespace TimeOfDay

/-- The time with given hour, minute, second (60 is a leap second) and nanoseconds. -/
def ofParts? (hour minute second nanos : Nat) : Option TimeOfDay :=
  let leap := second = 60
  let s := hour * 3600 + minute * 60 + (if leap then 59 else second)
  let n := if leap then nanos + 1000000000 else nanos
  if h : (hour < 24 ∧ minute < 60 ∧ second ≤ 60) ∧ s < 86400 ∧ n < 2000000000 then
    some ⟨s, n, h.2.1, h.2.2⟩
  else none

/-- The nanoseconds after the point: none, or 3, 6 or 9 digits, the fewest that show them all. -/
def fractionDigits (nanos : Nat) : List Char :=
  if nanos = 0 then []
  else if nanos % 1000000 = 0 then '.' :: Text.paddedDigits 3 (nanos / 1000000)
  else if nanos % 1000 = 0 then '.' :: Text.paddedDigits 6 (nanos / 1000)
  else '.' :: Text.paddedDigits 9 nanos

/-- The time as `HH:MM:SS`, with a fraction where there is one. -/
def digits (t : TimeOfDay) : List Char :=
  let (second, nanos) :=
    if 1000000000 ≤ t.nanos then (t.seconds % 60 + 1, t.nanos - 1000000000)
    else (t.seconds % 60, t.nanos)
  Text.paddedDigits 2 (t.seconds / 3600) ++ ':' :: Text.paddedDigits 2 (t.seconds / 60 % 60) ++
    ':' :: Text.paddedDigits 2 second ++ fractionDigits nanos

/-- The time as `HH:MM:SS`, with a fraction where there is one. -/
def text (t : TimeOfDay) : String := String.ofList t.digits

end TimeOfDay

end DailyBars
