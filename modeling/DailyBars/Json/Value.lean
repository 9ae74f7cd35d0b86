import DailyBars.Binary64

/-!
# JSON values

A JSON text as a tree. Objects keep their fields in the order of the text, repeated names included,
because a reader of records reports the first problem in that order. Two things that a text may
write but no reader can take are kept as such, so that they can be skipped over where nobody reads
them: a number beyond the range of a double, and a text with half of a surrogate pair.
-/

namespace DailyBars

/-- A number as it is written: an integer of at most 64 bits, a double, or neither. -/
inductive JsonNumber where
  | int (n : Int)
  | float (x : Binary64)
  | outOfRange
  deriving DecidableEq, Repr

/-- A JSON value. Texts and field names are `none` where they hold half of a surrogate pair. -/
inductive Json where
  | null
  | bool (b : Bool)
  | number (n : JsonNumber)
  | text (s : Option String)
  | list (items : List Json)
  | object (fields : List (Option String × Json))

namespace Json

/-- A text. -/
def str (s : String) : Json := .text (some s)

/-- An integer. -/
def int (n : Int) : Json := .number (.int n)

/-- A natural number. -/
def nat (n : Nat) : Json := .number (.int n)

/-- An object with readable names. -/
def obj (fields : List (String × Json)) : Json := .object (fields.map fun (k, v) => (some k, v))

/-- A text or null. -/
def str? : Option String → Json
  | none => .null
  | some s => str s

/-- The value of the first field with a given name. -/
def get? (name : String) : Json → Option Json
  | .object fields => (fields.find? fun f => f.1 == some name).map (·.2)
  | _ => none

mutual

/-- Whether a reader that takes everything can take the value: its numbers are doubles, its texts
are whole, and it is nested at most `depth` deep. -/
def isReadable (depth : Nat) : Json → Bool
  | .null | .bool _ => true
  | .number n => n != .outOfRange
  | .text s => s.isSome
  | .list items =>
    match depth with
    | 0 => false
    | d + 1 => areReadable d items
  | .object fields =>
    match depth with
    | 0 => false
    | d + 1 => fieldsReadable d fields

/-- Whether each of a list of values can be taken. -/
def areReadable (depth : Nat) : List Json → Bool
  | [] => true
  | v :: vs => isReadable depth v && areReadable depth vs

/-- Whether each of a list of fields can be taken. -/
def fieldsReadable (depth : Nat) : List (Option String × Json) → Bool
  | [] => true
  | (k, v) :: fs => k.isSome && isReadable depth v && fieldsReadable depth fs

end

/-- The greatest depth of nesting that is read. -/
def maxDepth : Nat := 127

end Json

end DailyBars
