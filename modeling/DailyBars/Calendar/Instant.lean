import DailyBars.Calendar.Date
import DailyBars.Calendar.TimeOfDay

/-!
# Instants

Points of time as seconds since 1970-01-01T00:00:00 UTC and nanoseconds, the readings of a clock
that is a fixed offset ahead of UTC, and the distance between two instants.
-/

namespace DailyBars

/-- An instant: seconds since the epoch and nanoseconds; a fraction of a whole second or more is a
leap second. -/
structure Instant where
  seconds : Int
  nanos : Nat
  deriving DecidableEq, Repr

/-- A date and a time of day, as a clock shows them. -/
structure WallReading where
  date : Date
  time : TimeOfDay
  deriving DecidableEq

namespace WallReading

/-- The seconds between the reading and 1970-01-01 00:00:00. -/
def seconds (r : WallReading) : Int := r.date.dayNumber * 86400 + r.time.seconds

/-- The instant at which a clock `offset` seconds ahead of UTC shows the reading. -/
def instantAt (r : WallReading) (offset : Int) : Instant := ⟨r.seconds - offset, r.time.nanos⟩

/-- The reading as date and time with `separator` between them. -/
def text (separator : Char) (r : WallReading) : String :=
  String.ofList (r.date.isoDigits ++ separator :: r.time.digits)

end WallReading

namespace Instant

instance : Inhabited Instant := ⟨⟨0, 0⟩⟩

/-- Nanoseconds since the epoch. -/
def totalNanos (t : Instant) : Int := t.seconds * 1000000000 + t.nanos

/-- The instant a number of nanoseconds after the epoch. -/
def ofNanos (n : Int) : Instant := ⟨n / 1000000000, (n % 1000000000).toNat⟩

/-- Earlier in time: first by the second, then within it. -/
def before (a b : Instant) : Bool :=
  a.seconds < b.seconds || (a.seconds = b.seconds && a.nanos < b.nanos)

instance : LT Instant := ⟨fun a b => a.before b = true⟩
instance (a b : Instant) : Decidable (a < b) := inferInstanceAs (Decidable (a.before b = true))

/-- What a clock `offset` seconds ahead of UTC shows, where the calendar reaches. -/
def reading? (t : Instant) (offset : Int) : Option WallReading :=
  let local' := t.seconds + offset
  match Date.ofDayNumber? (local' / 86400) with
  | none => none
  | some date =>
    let s := (local' % 86400).toNat
    if h : s < 86400 ∧ t.nanos < 2000000000 then some ⟨date, ⟨s, t.nanos, h.1, h.2⟩⟩ else none

/-- Whether the calendar reaches the instant. -/
def inCalendar (t : Instant) : Bool :=
  Date.firstDay ≤ t.seconds / 86400 && t.seconds / 86400 ≤ Date.lastDay

/-- The instant `s` whole seconds later, if the calendar reaches it. From a leap second one goes
forward as from the start of the second before it, and back as from the second after it. -/
def addSeconds? (t : Instant) (s : Int) : Option Instant :=
  let r : Instant :=
    if t.nanos < 1000000000 then ⟨t.seconds + s, t.nanos⟩
    else if 0 < s then ⟨t.seconds + s, t.nanos - 1000000000⟩
    else if s < 0 then ⟨t.seconds + 1 + s, t.nanos - 1000000000⟩
    else t
  if r.inCalendar then some r else none

/-- The nanoseconds from `u` to `t`. A leap second of the one counts only while the other is not
past it in the day: a clock between the two at the same time of day has not ticked it. -/
def since (t u : Instant) : Int :=
  let base := t.totalNanos - u.totalNanos
  let a := t.seconds % 86400
  let b := u.seconds % 86400
  if b < a ∧ 1000000000 ≤ u.nanos then base + 1000000000
  else if a < b ∧ 1000000000 ≤ t.nanos then base - 1000000000
  else base

/-- The instant `n` nanoseconds later. -/
def plusNanos (t : Instant) (n : Int) : Instant := ofNanos (t.totalNanos + n)

/-- The instant in UTC, as `YYYY-MM-DDTHH:MM:SS` with its fraction and a `Z`. -/
def utcText (t : Instant) : String :=
  match t.reading? 0 with
  | some r => r.text 'T' ++ "Z"
  | none => ""

end Instant

/-- An offset from UTC as `+HH:MM`, seconds rounded to the nearest minute. -/
def offsetText (offset : Int) : String :=
  let minutes := (offset.natAbs + 30) / 60
  (if offset < 0 then "-" else "+") ++ Text.padded 2 (minutes / 60) ++ ":" ++
    Text.padded 2 (minutes % 60)

end DailyBars
