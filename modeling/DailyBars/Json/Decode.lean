import DailyBars.Calendar.Pattern
import DailyBars.Decimal.Scientific
import DailyBars.Json.Reader
import DailyBars.Text.Characters
import DailyBars.Text.Quoted

/-!
# Reading records from JSON

Typed reading of a JSON value. A record may be written as an object or as the list of its fields;
fields are read in the order of the text and the first problem wins, and only then are fields looked
for that are missing. Unknown fields are skipped, whatever they hold.

The same rules hold for a text and for a value that was read before, but for one: a list that is too
long for its record is found by a text reader as trailing characters, and by a value reader as a
wrong length.

Settings are read loosely: whoever writes them does not see types, so that a number may stand where
a text is wanted and the other way round.
-/

namespace DailyBars

/-- Why a JSON value is not the record that was asked for. -/
inductive DecodeError where
  /-- The text is not JSON. -/
  | malformed
  | missingField (name : String)
  | duplicateField (name : String)
  | invalidType (found expected : String)
  | invalidValue (found expected : String)
  | invalidLength (length : Nat) (expected : String)
  | unknownVariant (found : String) (variants : List String)
  /-- A list goes on after the last field of its record. -/
  | trailingItems
  /-- A reader of texts refused one. -/
  | refused (reason : String)
  deriving DecidableEq, Repr

namespace DecodeError

/-- The wording of a problem. -/
def message : DecodeError → String
  | .malformed => "<json>"
  | .missingField n => "missing field `" ++ n ++ "`"
  | .duplicateField n => "duplicate field `" ++ n ++ "`"
  | .invalidType found expected => "invalid type: " ++ found ++ ", expected " ++ expected
  | .invalidValue found expected => "invalid value: " ++ found ++ ", expected " ++ expected
  | .invalidLength n expected =>
    "invalid length " ++ Text.decimalText n ++ ", expected " ++ expected
  | .unknownVariant found variants =>
    "unknown variant `" ++ found ++ "`, expected one of " ++
      ", ".intercalate (variants.map fun v => "`" ++ v ++ "`")
  | .trailingItems => "trailing characters"
  | .refused reason => reason

end DecodeError

/-- Whether a JSON text is being read, or a value that was read before. -/
inductive JsonForm where
  | text
  | value
  /-- A value put together from settings. -/
  | loose
  deriving DecidableEq, Repr

/-- A typed reader of JSON values. -/
abbrev Decoder (α : Type) := JsonForm → Json → Except DecodeError α

namespace Decoder

/-- A value as a message names it. -/
def found : Json → String
  | .null => "null"
  | .bool b => "boolean `" ++ (if b then "true" else "false") ++ "`"
  | .number (.int n) => "integer `" ++ Text.integerText n ++ "`"
  | .number (.float x) => "floating point `" ++ x.text ++ "`"
  | .number .outOfRange => "number"
  | .text s => "string " ++ Text.quoted (s.getD "")
  | .list _ => "sequence"
  | .object _ => "map"

/-- Refuses a value whose type is not the expected one; a value that no reader can take makes the
whole text unreadable. -/
def mismatch {α : Type} (expected : String) (v : Json) : Except DecodeError α :=
  match v with
  | .number .outOfRange | .text none => .error .malformed
  | v => .error (.invalidType (found v) expected)

/-- The text that a value loosely is. -/
def looseText? : Json → Option String
  | .text s => s
  | .bool b => some (if b then "true" else "false")
  | .number (.int n) => some (Text.integerText n)
  | .number (.float x) => some x.positional
  | _ => none

/-- The natural number that a text loosely is: a switch is one or zero. -/
def switchOrNat? (s : String) : Option Nat :=
  if ["true", "on", "yes"].any (Text.lowercaseIs · s) then some 1
  else if ["false", "off", "no"].any (Text.lowercaseIs · s) then some 0
  else Text.readUnsigned? s.toList

/-- The natural number of 64 bits that a value loosely is; a fraction is rounded, and what is out of
range for a number with a point is brought to its end. -/
def looseNat? : Json → Option Nat
  | .text s => (s.bind switchOrNat?).filter (· < UInt64.size)
  | .bool b => some (if b then 1 else 0)
  | .number (.int n) => if 0 ≤ n ∧ n < UInt64.size then some n.toNat else none
  | .number (.float x) => some (x.toNat (UInt64.size - 1))
  | _ => none

/-- A text. -/
def string : Decoder String := fun form v =>
  match form, v with
  | _, .text (some s) => .ok s
  | .loose, v =>
    match looseText? v with
    | some s => .ok s
    | none => mismatch "a string" v
  | _, v => mismatch "a string" v

/-- True or false. -/
def bool : Decoder Bool := fun _ v =>
  match v with
  | .bool b => .ok b
  | v => mismatch "a boolean" v

/-- An integer between two bounds, of a type with the given name. -/
def integer (name : String) (lo hi : Int) : Decoder Int := fun _ v =>
  match v with
  | .number (.int n) =>
    if lo ≤ n ∧ n ≤ hi then .ok n else .error (.invalidValue (found v) name)
  | v => mismatch name v

/-- A signed integer of 64 bits. -/
def int64 : Decoder Int := integer "i64" (-9223372036854775808) 9223372036854775807

/-- A natural number below a size, of a type with the given name. A loose one counts modulo the
size. -/
def natural (name : String) (size : Nat) : Decoder Nat := fun form v =>
  match form with
  | .loose =>
    match looseNat? v with
    | some n => .ok (n % size)
    | none => mismatch name v
  | _ => (integer name 0 ((size : Int) - 1) form v).map Int.toNat

/-- A natural number of 32 bits. -/
def nat32 : Decoder Nat := natural "u32" UInt32.size

/-- A natural number of 64 bits. -/
def nat64 : Decoder Nat := natural "u64" UInt64.size

/-- A size. -/
def size : Decoder Nat := natural "usize" UInt64.size

/-- Null, or a value. -/
def option {α : Type} (d : Decoder α) : Decoder (Option α) := fun form v =>
  match v with
  | .null => .ok none
  | v => (d form v).map some

/-- A list of values. -/
def list {α : Type} (d : Decoder α) : Decoder (List α) := fun form v =>
  match v with
  | .list items => items.mapM (d form)
  | v => mismatch "a sequence" v

/-- A text that a reader of its own takes or refuses with a reason. -/
def parsed {α : Type} (expected : String) (read : String → Except String α) : Decoder α :=
  fun form v =>
    match form, v with
    | _, .text (some s) => (read s).mapError .refused
    | .loose, v =>
      match looseText? v with
      | some s => (read s).mapError .refused
      | none => mismatch expected v
    | _, v => mismatch expected v

/-- A date as `YYYY-MM-DD`. -/
def date : Decoder Date :=
  parsed "a formatted date string" fun s => (Date.ofIso s).mapError PatternError.message

/-- A time of day as `HH:MM:SS`. -/
def timeOfDay : Decoder TimeOfDay :=
  parsed "a formatted time string" fun s => (TimeOfDay.ofText s).mapError PatternError.message

/-- One of a list of names, also as an object with that name and null. -/
def variant {α : Type} (variants : List (String × α)) : Decoder α := fun _ v =>
  let named (s : String) : Except DecodeError α :=
    match variants.find? fun p => p.1 == s with
    | some (_, a) => .ok a
    | none => .error (.unknownVariant s (variants.map (·.1)))
  match v with
  | .text (some s) => named s
  | .object [(some s, inner)] => do
    let a ← named s
    match inner with
    | .null => .ok a
    | w => mismatch "unit" w
  | .object _ => .error (.invalidValue "map" "map with a single key")
  | v => mismatch "string or map" v

/-! ## Records -/

/-- What happens when a field is not there. -/
inductive Absence where
  /-- It is an error. -/
  | forbidden
  /-- The field is empty; only a list must hold it. -/
  | nullable
  /-- The field has its default. -/
  | defaulted
  deriving DecidableEq, Repr

/-- A field of a record `ρ`: its name, what its absence means, and how a record takes it. -/
structure Field (ρ : Type) where
  name : String
  absence : Absence
  read : JsonForm → Json → ρ → Except DecodeError ρ

/-- A field with a decoder and a setter. -/
def field {ρ α : Type} (name : String) (absence : Absence) (d : Decoder α) (set : ρ → α → ρ) :
    Field ρ :=
  ⟨name, absence, fun form v r => (d form v).map (set r)⟩

/-- A field that must be there. -/
def required {ρ α : Type} (name : String) (d : Decoder α) (set : ρ → α → ρ) : Field ρ :=
  field name .forbidden d set

/-- A field that may be null or missing. -/
def nullable {ρ α : Type} (name : String) (d : Decoder α) (set : ρ → Option α → ρ) : Field ρ :=
  field name .nullable (option d) set

/-- A field with a default. -/
def defaulted {ρ α : Type} (name : String) (d : Decoder α) (set : ρ → α → ρ) : Field ρ :=
  field name .defaulted d set

/-- Reads the fields of an object in the order of the text. `seen` holds the names read so far. -/
def readFields {ρ : Type} (fields : List (Field ρ)) (form : JsonForm) (r : ρ) (seen : List String) :
    List (Option String × Json) → Except DecodeError (ρ × List String)
  | [] => .ok (r, seen)
  | (none, _) :: _ => .error .malformed
  | (some k, v) :: rest =>
    match fields.find? fun f => f.name == k with
    | none => readFields fields form r seen rest
    | some f =>
      if seen.contains k then .error (.duplicateField k)
      else
        match f.read form v r with
        | .error e => .error e
        | .ok r => readFields fields form r (k :: seen) rest

/-- The first field that is missing and must not be. -/
def firstMissing {ρ : Type} (fields : List (Field ρ)) (seen : List String) : Option String :=
  (fields.find? fun f => f.absence == .forbidden && !seen.contains f.name).map (·.name)

/-- Reads the fields of a record from the items of a list. `total` is the length of the list and
`count` the number of items read so far. -/
def readItems {ρ : Type} (expected : String) (form : JsonForm) (total count : Nat) (r : ρ) :
    List (Field ρ) → List Json → Except DecodeError ρ
  | [], [] => .ok r
  | [], _ :: _ =>
    match form with
    | .text => .error .trailingItems
    | .value => .error (.invalidLength total "fewer elements in array")
    | .loose => .ok r
  | f :: fs, [] =>
    if f.absence == .defaulted then readItems expected form total (count + 1) r fs []
    else .error (.invalidLength count expected)
  | f :: fs, v :: vs =>
    match f.read form v r with
    | .error e => .error e
    | .ok r => readItems expected form total (count + 1) r fs vs

/-- Reads a record of the given name: `start` holds the defaults of its fields. -/
def record {ρ : Type} (name : String) (fields : List (Field ρ)) (start : ρ) : Decoder ρ :=
  fun form v =>
    match v with
    | .object entries =>
      match readFields fields form start [] entries with
      | .error e => .error e
      | .ok (r, seen) =>
        match firstMissing fields seen with
        | some k => .error (.missingField k)
        | none => .ok r
    | .list items =>
      readItems ("struct " ++ name ++ " with " ++ Text.decimalText fields.length ++ " elements")
        form items.length 0 start fields items
    | v => mismatch ("struct " ++ name) v

/-- Reads a text. Its grammar comes first; what a record skips is not judged, but once a record
cannot be read, a text that holds anything unreadable counts as malformed. -/
def ofText {α : Type} (d : Decoder α) (s : String) : Except DecodeError α :=
  match Json.ofText? s with
  | none => .error .malformed
  | some v =>
    match d .text v with
    | .ok a => .ok a
    | .error e => .error (if v.isReadable Json.maxDepth then e else .malformed)

end Decoder

end DailyBars
