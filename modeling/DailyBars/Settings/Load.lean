import DailyBars.Settings.App
import DailyBars.Settings.EnvFile
import DailyBars.Toml.Document

/-!
# Loading the settings

The settings are those of the configuration file, those of the environment laid over them, and two
addresses from variables of their own over both. A process without accounts in its settings may have
one in its environment.
-/

namespace DailyBars

/-- What the loading of settings finds. -/
structure SettingSources where
  /-- The configuration file, if there is one. -/
  file : Option String
  environment : Environment
  deriving DecidableEq, Repr

namespace SettingSources

/-- The variables that name an address, and the settings that they stand for. -/
def addressVariables : List (String × SettingPath) := [
  ("DATABASE_URL", [.name "database", .name "url"]),
  ("REDIS_URL", [.name "redis", .name "url"])]

/-- Lays the settings of a file over others. -/
def overlayFile (text : String) (settings : Json) : Except SetupError Json :=
  match Toml.ofText? text with
  | none => .error (.config "the configuration file is not a TOML document")
  | some document =>
    .ok (document.entries.foldl (fun settings (k, v) => Json.overlayAt v (.ofText k) settings)
      settings)

/-- All settings as one value. -/
def merged (s : SettingSources) : Except SetupError Json := do
  let settings ← match s.file with
    | none => .ok (Json.object [])
    | some text => overlayFile text (.object [])
  let settings := s.environment.overlaySettings settings
  return addressVariables.foldl (fun settings (name, path) =>
    match s.environment.get? name with
    | some address => Json.overlayAt (.str address) path settings
    | none => settings) settings

/-- The account that the environment describes. -/
def account? (e : Environment) : Option Account := do
  let key ← e.get? "KIS_APP_KEY"
  let secret ← e.get? "KIS_APP_SECRET"
  let number ← e.get? "KIS_ACCOUNT_NUMBER"
  return ⟨(e.get? "KIS_ACCOUNT_NAME").getD "default", number, key, secret⟩

/-- The settings with the account of the environment, if they have none. -/
def withAccount (e : Environment) (s : AppSettings) : AppSettings :=
  if s.broker.accounts.isEmpty then
    { s with broker.accounts := (account? e).toList }
  else s

/-- Loads the settings and checks them. -/
def load (s : SettingSources) : Except SetupError AppSettings := do
  let settings ← (AppSettings.decoder .loose (← s.merged)).mapError fun e => .config e.message
  let settings := withAccount s.environment settings
  settings.validate
  return settings

end SettingSources

namespace ConfigFile

/-- Where the configuration is looked for if nobody says otherwise. -/
def defaultPath : String := "config/collector.toml"

/-- The extension of a configuration file. -/
def extension : String := "toml"

/-- Whether a path ends in the name of a configuration file. -/
def isNamed (path : String) : Bool :=
  let name := (path.splitOn "/").getLastD ""
  match (name.splitOn ".").reverse with
  | ext :: rest@(_ :: _) => ext == extension && rest != [""]
  | _ => false

/-- The content of the configuration file at a path. A file whose name does not say what is in it is
passed over; if there is no file, the extension may have been left out. -/
def find? (read : String → Option String) (path : String) : Option String :=
  match read path with
  | some text => if isNamed path then some text else none
  | none => read (path ++ "." ++ extension)

end ConfigFile

end DailyBars
