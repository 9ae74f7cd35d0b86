import DailyBars.Text.Characters

/-!
# Log formats
-/

namespace DailyBars

/-- How log events are written. -/
inductive LogFormat where
  /-- For people, over several lines. -/
  | pretty
  /-- One JSON object a line. -/
  | json
  /-- One short line. -/
  | compact
  deriving DecidableEq, Repr

namespace LogFormat

/-- All formats with the words that choose them. -/
def words : List (String × LogFormat) :=
  [("pretty", pretty), ("json", json), ("compact", compact)]

/-- The format that a word chooses, capitals or not. -/
def ofText? (s : String) : Option LogFormat :=
  (words.find? fun p => Text.lowercaseIs p.1 s).map (·.2)

/-- What is said of a word that chooses none. -/
def unknownText (s : String) : String := "Unknown log format: " ++ s

/-- The name of the format. -/
def name : LogFormat → String
  | pretty => "Pretty"
  | json => "Json"
  | compact => "Compact"

end LogFormat

end DailyBars
