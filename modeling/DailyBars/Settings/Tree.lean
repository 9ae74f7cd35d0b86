import DailyBars.Json.Lookup
import DailyBars.Text.Digits

/-!
# Settings from several places

Settings are put together as one value, place after place: what comes later is laid over what is
there. Tables are merged, and everything else is replaced. A setting is named by a path such as
`kis.accounts[0].name`.
-/

namespace DailyBars

/-- A step of a path. -/
inductive SettingStep where
  | name (s : String)
  /-- A place in a list. -/
  | index (n : Nat)
  deriving DecidableEq, Repr

/-- The name of a setting. -/
abbrev SettingPath := List SettingStep

namespace SettingPath

/-- Whether a character may be part of a name. -/
def isNameChar (c : Char) : Bool := c.isAlphanum || c = ' ' || c = '_' || c = '-'

/-- Reads the steps after the first one, of which there are less than `fuel`. -/
def readSteps : (fuel : Nat) → List Char → Option SettingPath
  | _, [] => some []
  | 0, _ => none
  | fuel + 1, '.' :: rest =>
    let word := rest.takeWhile isNameChar
    if word.isEmpty then none
    else (readSteps fuel (rest.drop word.length)).map (.name (String.ofList word) :: ·)
  | fuel + 1, '[' :: rest =>
    let ds := rest.takeWhile Text.isDigit
    match Text.readNat? ds, rest.drop ds.length with
    | some n, ']' :: rest => (readSteps fuel rest).map (.index n :: ·)
    | _, _ => none
  | _, _ => none

/-- Reads a path; a text that is none is one name. -/
def ofText (s : String) : SettingPath :=
  let cs := s.toList
  let word := cs.takeWhile isNameChar
  match readSteps cs.length (cs.drop word.length) with
  | some steps => if word.isEmpty then [.name s] else .name (String.ofList word) :: steps
  | none => [.name s]

end SettingPath

namespace Json

/-- Changes the field of a name, or adds one. -/
def alterField (name : String) (f : Option Json → Json) :
    List (Option String × Json) → List (Option String × Json)
  | [] => [(some name, f none)]
  | (k, v) :: rest =>
    if k = some name then (k, f (some v)) :: rest else (k, v) :: alterField name f rest

/-- The fields of a table; anything else has none. -/
def tableFields : Json → List (Option String × Json)
  | .object fields => fields
  | _ => []

mutual

/-- Lays a value over another: tables are merged. -/
def overlay : Json → Json → Json
  | .object fields, old => .object (overlayFields fields old.tableFields)
  | v, _ => v

/-- Lays fields over others. -/
def overlayFields : List (Option String × Json) → List (Option String × Json) →
    List (Option String × Json)
  | [], olds => olds
  | (none, _) :: rest, olds => overlayFields rest olds
  | (some k, v) :: rest, olds =>
    overlayFields rest (alterField k (fun old => overlay v (old.getD .null)) olds)

end

/-- The items of a list, or of none, with null up to a given place. -/
def itemsThrough (n : Nat) (j : Json) : List Json :=
  j.items ++ List.replicate (n + 1 - j.items.length) .null

/-- Lays a value over what is at the end of a path. What stands in the way of the path is
replaced. -/
def overlayAt (v : Json) : SettingPath → Json → Json
  | [], old => overlay v old
  | .name k :: rest, old =>
    .object (alterField k (fun entry => overlayAt v rest (entry.getD .null)) old.tableFields)
  | .index n :: rest, old =>
    let items := old.itemsThrough n
    .list (items.set n (overlayAt v rest (items.getD n .null)))

end Json

end DailyBars
