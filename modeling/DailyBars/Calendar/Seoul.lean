import DailyBars.Calendar.Instant

/-!
# The clock of Seoul

The history of the offset of `Asia/Seoul` from UTC: local mean time, the standard times of eight and
a half and of nine hours, and the summers in which the clock was put forward. A wall reading may be
shown by one instant, by two (where the clock was put back) or by none (where it was put forward);
the candidates are found by trying every offset that was ever in force. From them comes the next
instant at which the clock shows a time of day.
-/

namespace DailyBars.Seoul

/-- An offset from UTC in force from an instant on, with the name of the time it gives. -/
structure Era where
  since : Int
  offset : Int
  name : String
  deriving DecidableEq, Repr

/-- Seconds since the epoch of a UTC date and time. -/
def utc (year : Int) (month day hour minute : Nat) (second : Nat := 0) : Int :=
  (CivilDate.mk year month day).dayNumber * 86400 + hour * 3600 + minute * 60 + second

/-- Local mean time: 8 h 27 min 52 s ahead of UTC. -/
def localMean : Int := 30472

/-- Eight and a half hours. -/
def halfEarly : Int := 30600

/-- Nine hours. -/
def nine : Int := 32400

/-- Nine and a half hours, the summer time of the years of eight and a half. -/
def halfLate : Int := 34200

/-- Ten hours, the summer time of the years of nine. -/
def ten : Int := 36000

/-- The offsets after local mean time, oldest first. -/
def eras : List Era := [
  ⟨utc 1908 3 31 15 32 8, halfEarly, "KST"⟩,
  ⟨utc 1911 12 31 15 30, nine, "JST"⟩,
  ⟨utc 1945 9 7 15 0, nine, "KST"⟩,
  ⟨utc 1948 5 31 15 0, ten, "KDT"⟩, ⟨utc 1948 9 12 14 0, nine, "KST"⟩,
  ⟨utc 1949 4 2 15 0, ten, "KDT"⟩, ⟨utc 1949 9 10 14 0, nine, "KST"⟩,
  ⟨utc 1950 3 31 15 0, ten, "KDT"⟩, ⟨utc 1950 9 9 14 0, nine, "KST"⟩,
  ⟨utc 1951 5 5 15 0, ten, "KDT"⟩, ⟨utc 1951 9 8 14 0, nine, "KST"⟩,
  ⟨utc 1954 3 20 15 0, halfEarly, "KST"⟩,
  ⟨utc 1955 5 4 15 30, halfLate, "KDT"⟩, ⟨utc 1955 9 8 14 30, halfEarly, "KST"⟩,
  ⟨utc 1956 5 19 15 30, halfLate, "KDT"⟩, ⟨utc 1956 9 29 14 30, halfEarly, "KST"⟩,
  ⟨utc 1957 5 4 15 30, halfLate, "KDT"⟩, ⟨utc 1957 9 21 14 30, halfEarly, "KST"⟩,
  ⟨utc 1958 5 3 15 30, halfLate, "KDT"⟩, ⟨utc 1958 9 20 14 30, halfEarly, "KST"⟩,
  ⟨utc 1959 5 2 15 30, halfLate, "KDT"⟩, ⟨utc 1959 9 19 14 30, halfEarly, "KST"⟩,
  ⟨utc 1960 4 30 15 30, halfLate, "KDT"⟩, ⟨utc 1960 9 17 14 30, halfEarly, "KST"⟩,
  ⟨utc 1961 8 9 15 30, nine, "KST"⟩,
  ⟨utc 1987 5 9 17 0, ten, "KDT"⟩, ⟨utc 1987 10 10 17 0, nine, "KST"⟩,
  ⟨utc 1988 5 7 17 0, ten, "KDT"⟩, ⟨utc 1988 10 8 17 0, nine, "KST"⟩]

/-- The offset and the name in force `s` seconds after the epoch, given those before the first of
the eras. -/
def inForce (current : Int × String) (s : Int) : List Era → Int × String
  | [] => current
  | e :: es => if e.since ≤ s then inForce (e.offset, e.name) s es else current

/-- The offset from UTC in seconds and the name of the time at an instant. -/
def zoneAt (t : Instant) : Int × String := inForce (localMean, "LMT") t.seconds eras

/-- The offset from UTC in seconds at an instant. -/
def offsetAt (t : Instant) : Int := (zoneAt t).1

/-- What the clock of Seoul shows at an instant. -/
def reading? (t : Instant) : Option WallReading := t.reading? (offsetAt t)

/-- The offsets that were ever in force, the greatest first: an instant found with a greater offset
is the earlier one. -/
def offsets : List Int := [ten, halfLate, nine, halfEarly, localMean]

/-- The instants at which the clock of Seoul shows a reading, earliest first. -/
def instantsShowing (r : WallReading) : List Instant :=
  offsets.filterMap fun o =>
    let t := r.instantAt o
    if offsetAt t = o ∧ t.inCalendar then some t else none

/-- The instant that shows a reading, when exactly one does. -/
def single? (r : WallReading) : Option Instant :=
  match instantsShowing r with
  | [t] => some t
  | _ => none

/-- The first instant that shows a reading. -/
def earliest? (r : WallReading) : Option Instant := (instantsShowing r).head?

/-- The date in Seoul at an instant. -/
def dateAt (t : Instant) : Date :=
  match reading? t with
  | some r => r.date
  | none => default

/-- The instant as Seoul shows it, with the name of the time: `2024-03-05 18:30:00 KST`. -/
def display (t : Instant) : String :=
  match reading? t with
  | some r => r.text ' ' ++ " " ++ (zoneAt t).2
  | none => ""

/-- The instant as Seoul shows it, with the offset: `2024-03-05T18:30:00+09:00`. -/
def stamped (t : Instant) : String :=
  match reading? t with
  | some r => r.text 'T' ++ offsetText (offsetAt t)
  | none => ""

/-! ### The next time of day -/

/-- The first instant after `now` at which Seoul shows the time: today's if it is still to come,
otherwise tomorrow's. A time that tomorrow's clock skips is not waited for. -/
def nextRunAfter (now : Instant) (time : TimeOfDay) : Instant :=
  let today := dateAt now
  let candidate := (earliest? ⟨today, time⟩).filter fun t => decide (now < t)
  match candidate with
  | some t => t
  | none =>
    let tomorrow := (today.addDays? 1).getD today
    (earliest? ⟨tomorrow, time⟩).getD now

/-- The nanoseconds from `now` to the next run. -/
def waitForNext (now : Instant) (time : TimeOfDay) : Nat :=
  ((nextRunAfter now time).since now).toNat

end DailyBars.Seoul
