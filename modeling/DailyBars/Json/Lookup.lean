import DailyBars.Json.Value

/-!
# Looking into JSON values

Reading a value of which little is asked: a field that is missing, null or of another type counts as
not there, and has a default.
-/

namespace DailyBars.Json

/-- The value of a field that is there and not null. -/
def at? (j : Json) (name : String) : Option Json :=
  match j.get? name with
  | some .null | none => none
  | some v => some v

/-- The value of a field, null if it is not there. -/
def at! (j : Json) (name : String) : Json := (j.get? name).getD .null

/-- The text, if the value is one. -/
def text? : Json → Option String
  | .text s => s
  | _ => none

/-- The integer, if the value is one. -/
def int? : Json → Option Int
  | .number (.int n) => some n
  | _ => none

/-- The items, if the value is a list. -/
def items : Json → List Json
  | .list xs => xs
  | _ => []

/-- The fields, if the value is an object. -/
def entries : Json → List (String × Json)
  | .object fs => fs.filterMap fun (k, v) => k.map (·, v)
  | _ => []

/-- The text of a field. -/
def textAt? (j : Json) (name : String) : Option String := (j.at? name).bind text?

/-- The text of a field, empty if it is not there. -/
def textAt (j : Json) (name : String) : String := (j.textAt? name).getD ""

/-- The integer of a field. -/
def intAt? (j : Json) (name : String) : Option Int := (j.at? name).bind int?

/-- The natural number of a field. -/
def natAt? (j : Json) (name : String) : Option Nat := (j.intAt? name).map Int.toNat

/-- The natural number of a field, with a default. -/
def natAt (j : Json) (name : String) (default' : Nat := 0) : Nat :=
  (j.natAt? name).getD default'

/-- Whether a field is there and true. -/
def isTrueAt (j : Json) (name : String) : Bool :=
  match j.at? name with
  | some (.bool b) => b
  | _ => false

/-- The items of a field. -/
def itemsAt (j : Json) (name : String) : List Json := (j.at! name).items

/-- A value that may be missing. -/
def orNull {α : Type} (write : α → Json) : Option α → Json
  | none => .null
  | some a => write a

end DailyBars.Json
