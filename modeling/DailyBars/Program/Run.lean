import DailyBars.Collect.Schedule
import DailyBars.Log.Setup
import DailyBars.Program.Arguments
import DailyBars.Program.Collector

/-!
# A run of the program

The settings are loaded, the log is opened, the collector is put together, and the job is run, or
both jobs every day. A job that was skipped or has failed is no failure of the program: it is run
again on the next day.
-/

namespace DailyBars

/-- Why the program gives up. -/
inductive ProgramError where
  | setup (cause : SetupError)
  | assembly (cause : AssemblyError)
  | migration (cause : DataError)
  deriving DecidableEq, Repr

/-- What the program says when it gives up. -/
def ProgramError.shown : ProgramError → String
  | setup e => e.shown
  | assembly e => e.shown
  | migration e => e.shown

/-- What a diagnostic shows of an outcome. -/
def Outcome.shown (o : Outcome) : String :=
  let n := Text.decimalText
  "BatchOutcome \x7b total: " ++ n o.total ++ ", success: " ++ n o.success ++
    ", recoverable_failure: " ++ n o.recoverable ++ ", critical_failure: " ++ n o.critical ++
    ", unexpected_failure: " ++ n o.unexpected ++ ", skipped: " ++ n o.skipped ++
    ", saved_rows: " ++ n o.savedRows ++ ", elapsed: " ++ Text.duration o.elapsed ++ " \x7d"

/-- A run that can begin: its settings are loaded and its log is open. -/
structure ProgramRun where
  mode : RunMode
  options : RunOptions
  settings : AppSettings
  log : LogConfig
  filter : LogFilter

namespace ProgramRun

variable {σ : Type}

/-- Loads the settings and opens the log. -/
def prepare (mode : RunMode) (options : RunOptions) (sources : SettingSources) :
    Except SetupError ProgramRun := do
  let settings ← sources.load
  let log := LogConfig.ofSettings settings.log (sources.environment.get? "LOG_FORMAT")
  let log := { log with level := options.logLevel.getD log.level }
  let filter ← log.openLog (sources.environment.get? "RUST_LOG") none
  return ⟨mode, options, settings, log, filter⟩

/-- Says what became of a job. -/
def report : JobRun (Except CollectError Outcome) → Act σ Unit
  | .executed (.ok o) => Act.emit .debug .program "Job finished" [("outcome", .text o.shown)]
  | .executed (.error _) | .brokenOff => pure ()
  | .skipped => Act.emit .info .program "Job skipped" []

/-- Runs a job and says what became of it. -/
def runJob (c : Collector σ) (job : Job) : Act σ Unit := do report (← c.runJob job)

/-- Runs both jobs every day, until it is stopped after the given number of runs. -/
def runDaemon (c : Collector σ) (runs : Nat) : Act σ Unit := do
  let times := c.config.times
  Act.emit .info .program "=== Daemon mode (Asia/Seoul) ==="
    [("backfill_time", .text times.backfill.text),
      ("collection_time", .text times.collection.text)]
  Schedule.runSideBySide
    [⟨Job.backfill.name, times.backfill, runJob c .backfill⟩,
      ⟨Job.collection.name, times.collection, runJob c .collection⟩] runs
  Act.emit .info .program "Shutdown signal received" []

/-- Runs the program. A daemon is stopped after the given number of runs. -/
def run (p : ProgramRun) (outside : Outside σ) (runs : Nat) : Attempt σ ProgramError Unit := do
  Attempt.ofAct p.log.announce
  Attempt.ofAct (Act.emit .info .program "Daily price collector starting"
    [("config", .text p.options.configPath)])
  let c ← (Collector.assemble outside p.settings).orElseAs .assembly
  if p.options.migrate then
    c.migrate.orElseAs .migration
  Attempt.ofAct
    (match p.mode with
    | .once job => runJob c job
    | .daemon => runDaemon c runs)
  Attempt.ofAct (Act.emit .info .program "Daily price collector stopped" [])

end ProgramRun

end DailyBars
