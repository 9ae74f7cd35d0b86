import DailyBars.Json.Writer
import DailyBars.Log.Event
import DailyBars.Log.Format

/-!
# Lines of the log

The three ways in which an event is written.
-/

namespace DailyBars

/-- Writes the value of a field. -/
def LogValue.toJson : LogValue → Json
  | .text s => .str s
  | .int n => .int n
  | .bool b => .bool b

/-- The value of a field as text. -/
def LogValue.shown : LogValue → String
  | .text s => s
  | .int n => Text.integerText n
  | .bool b => if b then "true" else "false"

namespace LogEvent

/-- The fields of an event, of which the message is one, as JSON. -/
def recordedFields (e : LogEvent) : Json :=
  .obj (("message", .str e.message) :: e.fields.map fun (k, v) => (k, v.toJson))

/-- The event as JSON, without its time. -/
def record (e : LogEvent) : List (String × Json) :=
  [("level", .str e.level.name), ("fields", e.recordedFields), ("target", .str e.source.path)]

/-- The level and the target, which begin a line for people. -/
def heading (e : LogEvent) : String :=
  let name := e.level.name
  "".pushn ' ' (5 - name.length) ++ name ++ " " ++ e.source.path ++ ": "

/-- The event at a time as it is written: as JSON, or for people, with an empty line after it or
not. -/
def line (format : LogFormat) (time : String) (e : LogEvent) : String :=
  match format with
  | .json => (Json.obj (("timestamp", .str time) :: e.record)).write ++ "\n"
  | .compact =>
    " ".intercalate ((time ++ " " ++ e.heading ++ e.message) ::
      e.fields.map fun (k, v) => k ++ "=" ++ v.shown) ++ "\n"
  | .pretty =>
    ", ".intercalate (("  " ++ time ++ " " ++ e.heading ++ e.message) ::
      e.fields.map fun (k, v) => k ++ ": " ++ v.shown) ++ "\n\n"

end LogEvent

end DailyBars
