import DailyBars.Calendar.Instant
import DailyBars.Text.Characters

/-!
# Reading dates and times by a pattern

A pattern is a list of fields, literal characters and blanks. A numeric field skips white space in
front and takes one or two digits; a year takes up to four, or any number after an explicit sign.
Each field checks its own range as it is read, and the whole is checked against the calendar at the
end; what is left over after the last item is an error.
-/

namespace DailyBars

/-- Why a text does not match a pattern. -/
inductive PatternError where
  /-- The text ends inside the pattern. -/
  | tooShort
  /-- A character does not fit. -/
  | invalid
  /-- A field or the whole is outside of its range. -/
  | outOfRange
  /-- Something follows the last item. -/
  | trailing
  deriving DecidableEq, Repr

/-- The wording of a mismatch. -/
def PatternError.message : PatternError → String
  | .tooShort => "premature end of input"
  | .invalid => "input contains invalid characters"
  | .outOfRange => "input is out of range"
  | .trailing => "trailing input"

/-- The numeric fields of a pattern. -/
inductive PatternField where
  | year | month | day | hour | minute | second
  deriving DecidableEq, Repr

/-- The items of a pattern. -/
inductive PatternItem where
  /-- A number. -/
  | field (f : PatternField)
  /-- The nanoseconds after a point, if a point follows. -/
  | fraction
  /-- Exactly this character. -/
  | literal (c : Char)
  /-- Any run of white space, also an empty one. -/
  | blanks
  deriving DecidableEq, Repr

/-- The fields read so far; unread ones are zero. -/
structure PatternFields where
  year : Int := 0
  month : Nat := 0
  day : Nat := 0
  hour : Nat := 0
  minute : Nat := 0
  second : Nat := 0
  nanos : Nat := 0
  deriving DecidableEq, Repr

namespace PatternFields

/-- The greatest number that is kept while reading; beyond it the field is out of range at once. -/
def readLimit : Nat := 9223372036854775807

/-- One to `most` digits at the head of a text, as a number, with the rest. -/
def readNumber (most : Nat) (cs : List Char) : Except PatternError (Nat × List Char) :=
  match cs with
  | [] => .error .tooShort
  | c :: _ =>
    if !Text.isDigit c then .error .invalid
    else
      let ds := (cs.take most).takeWhile Text.isDigit
      let n := Text.valueOfDigits 0 ds
      if readLimit < n then .error .outOfRange else .ok (n, cs.drop ds.length)

/-- The year at the head of a text. -/
def readYear (cs : List Char) : Except PatternError (Int × List Char) := do
  match cs with
  | '-' :: cs' =>
    let (n, rest) ← readNumber cs'.length cs'
    return (-(n : Int), rest)
  | '+' :: cs' =>
    let (n, rest) ← readNumber cs'.length cs'
    return ((n : Int), rest)
  | _ =>
    let (n, rest) ← readNumber 4 cs
    return ((n : Int), rest)

/-- Keeps a number if it lies between two bounds. -/
def inRange (lo hi n : Nat) : Except PatternError Nat :=
  if lo ≤ n && n ≤ hi then .ok n else .error .outOfRange

/-- Keeps a year if it fits 32 bits. -/
def yearInRange (y : Int) : Except PatternError Int :=
  if -2147483648 ≤ y && y ≤ 2147483647 then .ok y else .error .outOfRange

/-- Reads one numeric field. -/
def readField (p : PatternFields) (f : PatternField) (cs : List Char) :
    Except PatternError (PatternFields × List Char) := do
  let cs := Text.dropBlanks cs
  match f with
  | .year => let (y, rest) ← readYear cs; return ({ p with year := ← yearInRange y }, rest)
  | .month => let (n, rest) ← readNumber 2 cs; return ({ p with month := ← inRange 1 12 n }, rest)
  | .day => let (n, rest) ← readNumber 2 cs; return ({ p with day := ← inRange 1 31 n }, rest)
  | .hour => let (n, rest) ← readNumber 2 cs; return ({ p with hour := ← inRange 0 23 n }, rest)
  | .minute => let (n, rest) ← readNumber 2 cs; return ({ p with minute := ← inRange 0 59 n }, rest)
  | .second => let (n, rest) ← readNumber 2 cs; return ({ p with second := ← inRange 0 60 n }, rest)

/-- Reads the digits after a point: nine of them count, more are skipped. -/
def readFraction (p : PatternFields) (cs : List Char) :
    Except PatternError (PatternFields × List Char) :=
  match cs with
  | '.' :: cs' => do
    let (n, rest) ← readNumber 9 cs'
    let taken := cs'.length - rest.length
    return ({ p with nanos := n * Nat.pow 10 (9 - taken) }, rest.dropWhile Text.isDigit)
  | _ => .ok (p, cs)

/-- Reads one item. -/
def readItem (p : PatternFields) (item : PatternItem) (cs : List Char) :
    Except PatternError (PatternFields × List Char) :=
  match item with
  | .field f => readField p f cs
  | .fraction => readFraction p cs
  | .blanks => .ok (p, Text.dropBlanks cs)
  | .literal c =>
    match cs with
    | [] => .error .tooShort
    | d :: rest => if d = c then .ok (p, rest) else .error .invalid

/-- Reads the items one after the other, and gives what is left of the text. -/
def readItems (p : PatternFields) : List PatternItem → List Char →
    Except PatternError (PatternFields × List Char)
  | [], cs => .ok (p, cs)
  | item :: items, cs => do
    let (p, rest) ← readItem p item cs
    readItems p items rest

/-- Reads a whole text. -/
def read (items : List PatternItem) (cs : List Char) : Except PatternError PatternFields :=
  match readItems {} items cs with
  | .error e => .error e
  | .ok (p, []) => .ok p
  | .ok (_, _ :: _) => .error .trailing

/-- The date of the fields read. -/
def date (p : PatternFields) : Except PatternError Date :=
  match Date.ofCivil? ⟨p.year, p.month, p.day⟩ with
  | some d => .ok d
  | none => .error .outOfRange

/-- The time of the fields read. -/
def time (p : PatternFields) : Except PatternError TimeOfDay :=
  match TimeOfDay.ofParts? p.hour p.minute p.second p.nanos with
  | some t => .ok t
  | none => .error .outOfRange

end PatternFields

open PatternField PatternItem in
/-- `YYYYMMDD`. -/
def compactPattern : List PatternItem := [field year, field month, field day]

open PatternField PatternItem in
/-- `YYYY-MM-DD`, with white space allowed around the parts. -/
def isoPattern : List PatternItem :=
  [field year, blanks, literal '-', field month, blanks, literal '-', field day, blanks]

open PatternField PatternItem in
/-- `YYYY-MM-DD HH:MM:SS`. -/
def stampPattern : List PatternItem :=
  [field year, literal '-', field month, literal '-', field day, blanks,
    field hour, literal ':', field minute, literal ':', field second]

open PatternField PatternItem in
/-- `HH:MM`. -/
def hourMinutePattern : List PatternItem := [field hour, blanks, literal ':', field minute]

open PatternField PatternItem in
/-- `:SS`, with an optional fraction. -/
def secondsPattern : List PatternItem :=
  [blanks, literal ':', field second, fraction, blanks]

/-- Reads a date written as `YYYYMMDD`. -/
def Date.ofCompact (s : String) : Except PatternError Date :=
  PatternFields.read compactPattern s.toList >>= PatternFields.date

/-- Reads a date written as `YYYY-MM-DD`. -/
def Date.ofIso (s : String) : Except PatternError Date :=
  PatternFields.read isoPattern s.toList >>= PatternFields.date

/-- Reads a date and time written as `YYYY-MM-DD HH:MM:SS`. -/
def WallReading.ofStamp (s : String) : Except PatternError WallReading := do
  let p ← PatternFields.read stampPattern s.toList
  return ⟨← p.date, ← p.time⟩

/-- Reads a time of day: hour and minute, then the seconds if they can be read; what follows must be
blank. -/
def TimeOfDay.ofText (s : String) : Except PatternError TimeOfDay := do
  let (p, rest) ← PatternFields.readItems {} hourMinutePattern s.toList
  let (p, rest) := match PatternFields.readItems p secondsPattern rest with
    | .ok r => r
    | .error _ => (p, rest)
  if (Text.dropBlanks rest).isEmpty then p.time else .error .trailing

open PatternField PatternItem in
/-- `YYYY-MM-DDTHH:MM:SS` with an optional fraction. -/
def utcPattern : List PatternItem :=
  [field year, literal '-', field month, literal '-', field day, literal 'T',
    field hour, literal ':', field minute, literal ':', field second, fraction]

/-- Reads the offset at the end of an instant: `Z`, `+HH:MM` or `-HH:MM`. -/
def readOffset? : List Char → Option Int
  | ['Z'] => some 0
  | sign :: rest =>
    match PatternFields.read hourMinutePattern rest with
    | .ok p =>
      let n : Int := p.hour * 3600 + p.minute * 60
      if sign = '+' then some n else if sign = '-' then some (-n) else none
    | .error _ => none
  | [] => none

/-- Reads an instant written as date, time and offset from UTC. -/
def Instant.ofText? (s : String) : Option Instant :=
  match PatternFields.readItems {} utcPattern s.toList with
  | .error _ => none
  | .ok (p, rest) =>
    match readOffset? rest, p.date, p.time with
    | some offset, .ok d, .ok t => some ((WallReading.mk d t).instantAt offset)
    | _, _, _ => none

end DailyBars
