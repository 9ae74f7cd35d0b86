import DailyBars.Collect.Config
import DailyBars.Settings.Load

/-!
# The command line

Options come before the command, each one once at most; after the command only help may be asked
for. The arguments are read from left to right, and the first one that asks for help or for the
version, or that cannot be read, decides.
-/

namespace DailyBars

/-- What a run of the program does. -/
inductive RunMode where
  /-- Runs a job once. -/
  | once (job : Job)
  /-- Runs both jobs every day until it is stopped. -/
  | daemon
  deriving DecidableEq, Repr

/-- The options of a run. -/
structure RunOptions where
  /-- What is written to the log, in place of what the settings say. -/
  logLevel : Option String
  configPath : String
  /-- Whether the schema of the database is brought up to date first. -/
  migrate : Bool
  deriving DecidableEq, Repr

/-- What the command line asks for. -/
inductive Command where
  | help
  | version
  | generateKey
  | run (mode : RunMode) (options : RunOptions)
  | misuse (problem : String)
  deriving DecidableEq, Repr

namespace Command

/-- The options that were given so far. -/
structure Given where
  logLevel : Option String := none
  configPath : Option String := none
  migrate : Bool := false
  deriving DecidableEq, Repr

/-- The options of the run, with the default where none was given. -/
def Given.options (g : Given) : RunOptions :=
  ⟨g.logLevel, g.configPath.getD ConfigFile.defaultPath, g.migrate⟩

/-- The commands. -/
def names : List String := ["collect", "backfill", "daemon", "gen-key", "help"]

/-- The command of a name. -/
def ofName? (name : String) (options : RunOptions) : Option Command :=
  match name with
  | "collect" => some (.run (.once .collection) options)
  | "backfill" => some (.run (.once .backfill) options)
  | "daemon" => some (.run .daemon options)
  | "gen-key" => some .generateKey
  | _ => none

/-- An argument that nothing expects. -/
def unexpected (arg : String) : Command := .misuse ("unexpected argument '" ++ arg ++ "' found")

/-- Whether an argument looks like an option, so that it is no value. -/
def isDashed (arg : String) : Bool := arg.startsWith "-" && arg != "-"

/-- Reads a group of one-letter options, of which the first one decides. -/
def ofLetters (arg : String) : Command :=
  match arg.toList with
  | '-' :: 'h' :: _ => .help
  | '-' :: 'V' :: _ => .version
  | _ => unexpected arg

/-- Reads what follows a command. -/
def afterCommand (c : Command) : List String → Command
  | [] => c
  | ["--"] => c
  | arg :: _ =>
    if arg = "--help" || (isDashed arg && ofLetters arg = .help) then .help else unexpected arg

/-- Reads what follows the command `help`. -/
def afterHelp : List String → Command
  | [] => .help
  | [name] => if names.contains name then .help else unexpected name
  | ["help", name] => if names.contains name then .help else unexpected name
  | arg :: _ => unexpected arg

/-- The name and the value of an option with an equality sign. -/
def assignment? (arg : String) : Option (String × String) :=
  let cs := arg.toList
  let name := cs.takeWhile (· ≠ '=')
  match cs.drop name.length with
  | '=' :: value => some (String.ofList name, String.ofList value)
  | _ => none

/-- Takes an option with its value. -/
def give (g : Given) (name value : String) : Except String Given :=
  match name with
  | "--log-level" =>
    if g.logLevel.isSome then .error "the option '--log-level' cannot be used multiple times"
    else .ok { g with logLevel := some value }
  | "--config" =>
    if g.configPath.isSome then .error "the option '--config' cannot be used multiple times"
    else if value.isEmpty then .error "a value is required for '--config'"
    else .ok { g with configPath := some value }
  | _ => .error ("unexpected argument '" ++ name ++ "' found")

/-- Reads the arguments, given the options before them. -/
def read (g : Given) : List String → Command
  | [] => .misuse "a command is required"
  | "--help" :: _ => .help
  | "--version" :: _ => .version
  | "help" :: rest => afterHelp rest
  | "--migrate" :: rest =>
    if g.migrate then .misuse "the option '--migrate' cannot be used multiple times"
    else read { g with migrate := true } rest
  | "--log-level" :: value :: rest =>
    if isDashed value then .misuse "a value is required for '--log-level'"
    else
      match give g "--log-level" value with
      | .ok g => read g rest
      | .error problem => .misuse problem
  | "--config" :: value :: rest =>
    if isDashed value then .misuse "a value is required for '--config'"
    else
      match give g "--config" value with
      | .ok g => read g rest
      | .error problem => .misuse problem
  | arg :: rest =>
    match ofName? arg g.options, assignment? arg with
    | some c, _ => afterCommand c rest
    | none, some (name, value) =>
      match give g name value with
      | .ok g => read g rest
      | .error problem => .misuse problem
    | none, none => if isDashed arg then ofLetters arg else unexpected arg

/-- Reads the command line. -/
def ofArguments (args : List String) : Command := read {} args

/-- The version, as the program tells it. -/
def versionText : String := "trader-collector 0.1.0\n"

/-- How the program is used. -/
def helpText : String :=
  "KIS daily price collector\n\n" ++
  "Usage: trader-collector [OPTIONS] <COMMAND>\n\n" ++
  "Commands:\n" ++
  "  collect   일일 수집 1회 실행\n" ++
  "  backfill  백필 1회 실행\n" ++
  "  daemon    데몬 모드: 매일 설정된 시각에 백필과 일일 수집 실행\n" ++
  "  gen-key   토큰 암호화 키 생성 (secrets.token_key)\n" ++
  "  help      Print this message or the help of the given subcommand(s)\n\n" ++
  "Options:\n" ++
  "      --log-level <LOG_LEVEL>  로그 레벨 (trace, debug, info, warn, error). 없으면 설정 파일 값\n" ++
  "      --config <CONFIG>        설정 파일 경로 [default: config/collector.toml]\n" ++
  "      --migrate                시작 전에 DB 마이그레이션 실행\n" ++
  "  -h, --help                   Print help\n" ++
  "  -V, --version                Print version\n"

end Command

end DailyBars
