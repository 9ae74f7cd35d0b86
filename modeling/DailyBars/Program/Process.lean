import DailyBars.Log.Line
import DailyBars.Program.Run

/-!
# The process

What a process is started with and what it leaves behind: an exit code, what it wrote for others to
read, and what it wrote about its end. A wrong command line ends with code 2, and a run that gives
up with code 1.
-/

namespace DailyBars

/-- What a process is started with. -/
structure Invocation where
  arguments : List String
  environment : Environment
  /-- The content of a file. -/
  read : String → Option String
  /-- Bytes that nobody can foretell, for a new key. -/
  random : List UInt8

/-- What a process leaves behind. -/
structure ProcessEnd where
  code : Nat
  output : String
  complaint : String
  deriving DecidableEq, Repr

namespace ProcessEnd

/-- The end of a process that did what it was asked for and wrote a text. -/
def done (output : String) : ProcessEnd := ⟨0, output, ""⟩

/-- The end of a run, with what it wrote to the log. -/
def ofRun {ε : Type} (shown : ε → String) (log : String) : Except ε Unit → ProcessEnd
  | .ok () => .done log
  | .error e => ⟨1, log, "Error: " ++ shown e ++ "\n"⟩

end ProcessEnd

namespace Invocation

variable {σ : Type}

/-- The file with variables that are offered to the environment. -/
def variableFile : String := ".env"

/-- Where the settings of a run come from. -/
def sources (i : Invocation) (options : RunOptions) : SettingSources where
  file := ConfigFile.find? i.read options.configPath
  environment :=
    match i.read variableFile with
    | some text => i.environment.withFile text
    | none => i.environment

/-- The lines that events leave in a log. -/
def logLines (filter : LogFilter) (format : LogFormat) (now : Instant) (events : List LogEvent) :
    String :=
  String.join ((events.filter filter.passes).map (·.line format now.utcText))

/-- Runs the process to its end; a daemon is stopped after the given number of runs. -/
def run (i : Invocation) (outside : Outside σ) (runs : Nat) : Act σ ProcessEnd :=
  match Command.ofArguments i.arguments with
  | .help => return .done Command.helpText
  | .version => return .done Command.versionText
  | .generateKey => return .done (TokenSeal.masterKey i.random ++ "\n")
  | .misuse problem => return ⟨2, "", "error: " ++ problem ++ "\n"⟩
  | .run mode options =>
    match ProgramRun.prepare mode options (i.sources options) with
    | .error e => return .ofRun SetupError.shown "" (.error e)
    | .ok p => fun s =>
      let (r, s) := (p.run outside runs).run s
      (.ofRun ProgramError.shown (logLines p.filter p.log.format s.clock.wall s.log) r, s)

end Invocation

end DailyBars
