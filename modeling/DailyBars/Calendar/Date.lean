import DailyBars.Text.Digits

/-!
# Dates

Days of the proleptic Gregorian calendar, kept as the number of days since 1970-01-01 so that
order, distance and "the day before" are those of the integers. Year, month and day are a reading of
that number. The calendar spans the years -262143 to 262142.
-/

namespace DailyBars

/-- Year, month and day of the month. -/
structure CivilDate where
  year : Int
  month : Nat
  day : Nat
  deriving DecidableEq, Repr

namespace CivilDate

/-- Whether a year has a 29th of February. -/
def isLeapYear (y : Int) : Bool := y % 4 = 0 && (y % 100 ≠ 0 || y % 400 = 0)

/-- The number of days of a month. -/
def daysInMonth (y : Int) (m : Nat) : Nat :=
  if m = 2 then (if isLeapYear y then 29 else 28)
  else if m = 4 || m = 6 || m = 9 || m = 11 then 30
  else 31

/-- Whether year, month and day name a day. -/
def isValid (c : CivilDate) : Bool :=
  1 ≤ c.month && c.month ≤ 12 && 1 ≤ c.day && c.day ≤ daysInMonth c.year c.month

/-- Days since 1970-01-01. The year is counted from March, so that the leap day ends it, and cut
into eras of 400 years, after which the calendar repeats. -/
def dayNumber (c : CivilDate) : Int :=
  let y := if c.month ≤ 2 then c.year - 1 else c.year
  let era := y / 400
  let yoe := y % 400
  let mp : Int := ((c.month + 9) % 12 : Nat)
  let doy := (153 * mp + 2) / 5 + c.day - 1
  let doe := yoe * 365 + yoe / 4 - yoe / 100 + doy
  era * 146097 + doe - 719468

/-- The day with a given number. -/
def ofDayNumber (n : Int) : CivilDate :=
  let z := n + 719468
  let era := z / 146097
  let doe := z % 146097
  let yoe := (doe - doe / 1460 + doe / 36524 - doe / 146096) / 365
  let doy := doe - (365 * yoe + yoe / 4 - yoe / 100)
  let mp := (5 * doy + 2) / 153
  let day := (doy - (153 * mp + 2) / 5 + 1).toNat
  let month := (if mp < 10 then mp + 3 else mp - 9).toNat
  let year := yoe + era * 400 + (if month ≤ 2 then 1 else 0)
  ⟨year, month, day⟩

end CivilDate

/-- A day of the calendar. -/
structure Date where
  dayNumber : Int
  inCalendar : -96465292 ≤ dayNumber ∧ dayNumber ≤ 95026236
  deriving DecidableEq

namespace Date

/-- The number of the first day of the calendar, -262143-01-01. -/
def firstDay : Int := -96465292

/-- The number of the last day of the calendar, 262142-12-31. -/
def lastDay : Int := 95026236

/-- The day with a given number, if the calendar holds it. -/
def ofDayNumber? (n : Int) : Option Date :=
  if h : -96465292 ≤ n ∧ n ≤ 95026236 then some ⟨n, h⟩ else none

/-- The day with a given year, month and day, if there is one. -/
def ofCivil? (c : CivilDate) : Option Date :=
  if c.isValid then ofDayNumber? c.dayNumber else none

/-- Year, month and day of the month. -/
def civil (d : Date) : CivilDate := CivilDate.ofDayNumber d.dayNumber

/-- The day `n` days later, if the calendar holds it. -/
def addDays? (d : Date) (n : Int) : Option Date := ofDayNumber? (d.dayNumber + n)

/-- The day before. -/
def pred? (d : Date) : Option Date := d.addDays? (-1)

instance : LE Date := ⟨fun a b => a.dayNumber ≤ b.dayNumber⟩
instance : LT Date := ⟨fun a b => a.dayNumber < b.dayNumber⟩
instance (a b : Date) : Decidable (a ≤ b) := inferInstanceAs (Decidable (a.dayNumber ≤ b.dayNumber))
instance (a b : Date) : Decidable (a < b) := inferInstanceAs (Decidable (a.dayNumber < b.dayNumber))
instance : Inhabited Date := ⟨⟨0, by decide⟩⟩

@[ext] theorem ext {a b : Date} (h : a.dayNumber = b.dayNumber) : a = b := by
  cases a; cases b; simp_all

theorem le_iff {a b : Date} : a ≤ b ↔ a.dayNumber ≤ b.dayNumber := Iff.rfl

theorem lt_iff {a b : Date} : a < b ↔ a.dayNumber < b.dayNumber := Iff.rfl

theorem pred?_eq_some {a b : Date} : a.pred? = some b ↔ b.dayNumber = a.dayNumber - 1 := by
  have := b.inCalendar
  unfold pred? addDays? ofDayNumber?
  split <;> simp [Date.ext_iff] <;> omega

/-- The earliest of a list of days. -/
def min? : List Date → Option Date
  | [] => none
  | d :: ds => some (ds.foldl (fun a b => if b < a then b else a) d)

/-- The latest of a list of days. -/
def max? : List Date → Option Date
  | [] => none
  | d :: ds => some (ds.foldl (fun a b => if a ≤ b then b else a) d)

/-- Days `from`, `from + 1` and so on, `count` of them, as far as the calendar goes. -/
def span (start : Date) (count : Nat) : List Date :=
  (List.range count).filterMap fun (i : Nat) => start.addDays? i

end Date

/-- A year as four digits; years before 0 and after 9999 with a sign. -/
def yearDigits (y : Int) : List Char :=
  if 0 ≤ y ∧ y ≤ 9999 then Text.paddedDigits 4 y.natAbs
  else (if y < 0 then '-' else '+') :: Text.paddedDigits 4 y.natAbs

namespace Date

/-- The date as `YYYY-MM-DD`. -/
def isoDigits (d : Date) : List Char :=
  let c := d.civil
  yearDigits c.year ++ '-' :: Text.paddedDigits 2 c.month ++ '-' :: Text.paddedDigits 2 c.day

/-- The date as `YYYY-MM-DD`. -/
def iso (d : Date) : String := String.ofList d.isoDigits

/-- The date as `YYYYMMDD`. -/
def compact (d : Date) : String :=
  let c := d.civil
  String.ofList
    (yearDigits c.year ++ Text.paddedDigits 2 c.month ++ Text.paddedDigits 2 c.day)

end Date

end DailyBars
