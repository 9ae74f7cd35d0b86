import DailyBars.Decimal.Scientific
import DailyBars.Settings.Tree
import DailyBars.Text.Characters

/-!
# Settings from the environment

A variable whose name begins with `COLLECTOR__` is a setting: two underscores part the steps of its
path, and capitals do not count. Its value is a truth value, an integer or a number with a point if
it reads as one, and a text otherwise.
-/

namespace DailyBars

/-- The variables of a process, each one once. -/
structure Environment where
  entries : List (String × String)
  deriving DecidableEq, Repr

namespace Environment

/-- The value of a variable. -/
def get? (e : Environment) (name : String) : Option String := e.entries.lookup name

/-- The environment with a variable that it does not have yet. -/
def offer (e : Environment) (name value : String) : Environment :=
  if (e.get? name).isSome then e else ⟨e.entries ++ [(name, value)]⟩

/-- What the names of settings begin with. -/
def settingMark : String := "collector__"

/-- A text with a dot for every two underscores. -/
def dotted : List Char → List Char
  | '_' :: '_' :: rest => '.' :: dotted rest
  | c :: rest => c :: dotted rest
  | [] => []

/-- The path of the setting that a variable stands for. -/
def settingPath? (name : String) : Option SettingPath :=
  let cs := name.toList.map Text.lowered
  if settingMark.toList.isPrefixOf cs then
    some (.ofText (String.ofList (dotted (cs.drop settingMark.length))))
  else none

/-- An integer of 64 bits with a sign or without. -/
def integer? (cs : List Char) : Option Int :=
  (Text.readInt? cs).filter fun n =>
    decide (Int64.minValue.toInt ≤ n) && decide (n ≤ Int64.maxValue.toInt)

/-- The words for what no double can hold, as they are written again. -/
def unboundedWord? (cs : List Char) : Option String :=
  let (negative, word) := Text.readSign cs
  let word := String.ofList word
  if Text.equalsIgnoringCase word "nan" then some "NaN"
  else if Text.equalsIgnoringCase word "inf" || Text.equalsIgnoringCase word "infinity" then
    some (if negative then "-inf" else "inf")
  else none

/-- A number with a point; one that is too great counts as infinite. -/
def float? (cs : List Char) : Option Json :=
  match unboundedWord? cs with
  | some word => some (.str word)
  | none =>
    (DecimalNotation.ofChars? cs).map fun n =>
      match n.value? with
      | some x => .number (.float x)
      | none => .str (if n.negative then "-inf" else "inf")

/-- The value that a word stands for. -/
def wordValue (s : String) : Json :=
  if Text.lowercaseIs "true" s then .bool true
  else if Text.lowercaseIs "false" s then .bool false
  else
    match integer? s.toList with
    | some n => .int n
    | none => (float? s.toList).getD (.str s)

/-- Lays the settings of the environment over others. -/
def overlaySettings (e : Environment) (settings : Json) : Json :=
  e.entries.foldl (fun settings (name, value) =>
    match settingPath? name with
    | some path => Json.overlayAt (wordValue value) path settings
    | none => settings) settings

end Environment

end DailyBars
