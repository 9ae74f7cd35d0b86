import DailyBars.Calendar.Date
import DailyBars.Decimal.Scientific
import DailyBars.Toml.Text

/-!
# Unquoted values in TOML

Truth values, integers, numbers with a point, and points in time. Digits may be grouped by
underscores, one at a time and only between digits. A point in time becomes a text in its usual
form.
-/

namespace DailyBars.Toml

/-- The digits of a number, the underscores between them left out. -/
def ungroup? (isOne : Char → Bool) (cs : List Char) : Option (List Char) :=
  match cs with
  | [] => none
  | [c] => if isOne c then some [c] else none
  | c :: '_' :: rest => if isOne c then (ungroup? isOne rest).map (c :: ·) else none
  | c :: rest => if isOne c then (ungroup? isOne rest).map (c :: ·) else none

/-- Digits without a zero in front. -/
def wholeDigits? (cs : List Char) : Option (List Char) :=
  match ungroup? Text.isDigit cs with
  | some ('0' :: _ :: _) | none => none
  | some ds => some ds

/-- The greatest integer. -/
def maxInteger : Nat := UInt64.size / 2 - 1

/-- An integer in a base of at most sixteen. -/
def basedInteger? (base : Nat) (cs : List Char) : Option Int := do
  let isOne (c : Char) : Bool := (Json.hexValue? c).any (· < base)
  let ds ← ungroup? isOne cs
  let n := (ds.filterMap Json.hexValue?).foldl (fun n d => n * base + d) 0
  if n ≤ maxInteger then some n else none

/-- An integer: in base ten with or without a sign, or in base sixteen, eight or two. -/
def integer? : List Char → Option Int
  | '0' :: 'x' :: ds => basedInteger? 16 ds
  | '0' :: 'o' :: ds => basedInteger? 8 ds
  | '0' :: 'b' :: ds => basedInteger? 2 ds
  | cs => do
    let (negative, ds) := Text.readSign cs
    let n := Text.valueOfDigits 0 (← wholeDigits? ds)
    if negative then (if n ≤ maxInteger + 1 then some (-(n : Int)) else none)
    else if n ≤ maxInteger then some n
    else none

/-- A number with a point, an exponent or both. -/
def float? (cs : List Char) : Option Binary64 := do
  let (_, body) := Text.readSign cs
  let whole := body.takeWhile fun c => Text.isDigit c || c = '_'
  let rest := body.drop whole.length
  let _ ← wholeDigits? whole
  let fraction := match rest with
    | '.' :: ds => ds.takeWhile fun c => Text.isDigit c || c = '_'
    | _ => []
  if rest.head? = some '.' then
    let _ ← ungroup? Text.isDigit fraction
  let tail := rest.drop (if rest.head? = some '.' then fraction.length + 1 else 0)
  match tail with
  | [] => pure ()
  | _ :: e =>
    let _ ← ungroup? Text.isDigit (Text.readSign e).2
  (← DecimalNotation.ofChars? (cs.filter (· ≠ '_'))).value?

/-! ### Points in time -/

/-- A number of two digits between two bounds. -/
def twoDigits? (lo hi : Nat) (a b : Char) : Option Nat := do
  let n ← Text.readNat? [a, b]
  if lo ≤ n ∧ n ≤ hi then some n else none

/-- A date. -/
def day? : Reader String
  | a :: b :: c :: d :: '-' :: e :: f :: '-' :: g :: h :: rest => do
    let year ← Text.readNat? [a, b, c, d]
    let month ← twoDigits? 1 12 e f
    let _ ← twoDigits? 1 (CivilDate.daysInMonth year month) g h
    return (String.ofList [a, b, c, d, '-', e, f, '-', g, h], rest)
  | _ => none

/-- The fraction of a second, of which nine digits count, without zeros at the end. -/
def fraction? : Reader String
  | '.' :: rest =>
    match Text.spanDigits rest with
    | ([], _) => none
    | (ds, rest) =>
      let shown := ((ds.take 9).reverse.dropWhile (· = '0')).reverse
      some (if shown.isEmpty then "" else "." ++ String.ofList shown, rest)
  | cs => some ("", cs)

/-- A time of day. -/
def clock? : Reader String
  | a :: b :: ':' :: c :: d :: ':' :: e :: f :: rest => do
    let _ ← twoDigits? 0 23 a b
    let _ ← twoDigits? 0 59 c d
    let _ ← twoDigits? 0 60 e f
    let (fraction, rest) ← fraction? rest
    return (String.ofList [a, b, ':', c, d, ':', e, f] ++ fraction, rest)
  | _ => none

/-- The whole of a text as an offset from universal time, which may be missing. -/
def offset? : List Char → Option String
  | [] => some ""
  | ['Z'] | ['z'] => some "Z"
  | [sign, a, b, ':', c, d] => do
    if sign ≠ '+' ∧ sign ≠ '-' then none
    let _ ← twoDigits? 0 23 a b
    let _ ← twoDigits? 0 59 c d
    return String.ofList [sign, a, b, ':', c, d]
  | _ => none

/-- The whole of a text as a date, a time of day, or both. -/
def moment? (cs : List Char) : Option String :=
  match day? cs with
  | some (day, []) => some day
  | some (day, mark :: rest) => do
    if mark ≠ 'T' ∧ mark ≠ 't' ∧ mark ≠ ' ' then none
    let (clock, rest) ← clock? rest
    return day ++ "T" ++ clock ++ (← offset? rest)
  | none =>
    match clock? cs with
    | some (clock, []) => some clock
    | _ => none

/-! ### Words -/

/-- Whether a character may be part of an unquoted value. -/
def isWordChar (c : Char) : Bool :=
  c.isAlphanum || c = '+' || c = '-' || c = '_' || c = '.' || c = ':'

/-- The value that a word stands for. What no double can hold is kept as the text that names it. -/
def wordValue? (cs : List Char) : Option Json :=
  match String.ofList cs with
  | "true" => some (.bool true)
  | "false" => some (.bool false)
  | "inf" | "+inf" => some (.str "inf")
  | "-inf" => some (.str "-inf")
  | "nan" | "+nan" | "-nan" => some (.str "NaN")
  | _ =>
    match integer? cs, moment? cs with
    | some n, _ => some (.int n)
    | none, some text => some (.str text)
    | none, none => (float? cs).map fun x => .number (.float x)

/-- An unquoted value. A date and a time of day may have a blank between them. -/
def readWord : Reader Json := fun cs =>
  let word := cs.takeWhile isWordChar
  let rest := cs.drop word.length
  let joined : Option (Json × List Char) :=
    match day? word, rest with
    | some (_, []), ' ' :: more =>
      let clock := more.takeWhile isWordChar
      (moment? (word ++ ' ' :: clock)).map fun text => (.str text, more.drop clock.length)
    | _, _ => none
  joined.or ((wordValue? word).map (·, rest))

end DailyBars.Toml
