import DailyBars.Log.Filter
import DailyBars.Log.Format
import DailyBars.Session
import DailyBars.Settings.App

/-!
# Configuration of the log
-/

namespace DailyBars

/-- How the log is written. -/
structure LogConfig where
  /-- Which events are written: a list of filter directives. -/
  level : String
  format : LogFormat
  spanEvents : Bool
  file : Bool
  target : Bool
  deriving DecidableEq, Repr

namespace LogConfig

/-- A configuration with a level and otherwise defaults. -/
def ofLevel (level : String) : LogConfig := ⟨level, .pretty, false, false, true⟩

/-- The configuration that the settings ask for. A format in the environment comes first, then that
of the settings; a word that chooses none is passed over. -/
def ofSettings (s : LogSettings) (environmentFormat : Option String) : LogConfig :=
  let format := (environmentFormat.bind LogFormat.ofText?).or (LogFormat.ofText? s.format)
  { ofLevel s.level with format := format.getD .pretty }

/-- Opens the log of a process, whose environment may have directives of its own. A log is opened
once; `current` is the one that is open. -/
def openLog (c : LogConfig) (environment : Option String) (current : Option LogFilter) :
    Except SetupError LogFilter := do
  let filter ← LogFilter.choose environment c.level
  if current.isSome then throw (.internal "로깅 초기화 실패")
  return filter

/-- Says that the log is open. -/
def announce {σ : Type} (c : LogConfig) : Act σ Unit :=
  Act.emit .info .logging "Logging initialized"
    [("format", .text c.format.name), ("level", .text c.level)]

end LogConfig

end DailyBars
