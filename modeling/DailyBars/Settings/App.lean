import DailyBars.Broker.Account
import DailyBars.Json.Decode
import DailyBars.Settings.Error

/-!
# Settings of the application

The sections of the configuration, their defaults and the checks before the start. A section that is
missing has its defaults; the database and the secrets have none.
-/

namespace DailyBars

/-- The database. -/
structure DatabaseSettings where
  url : String
  maxConnections : Nat
  connectionTimeoutSecs : Nat
  deriving DecidableEq, Repr

/-- The store of tokens and locks. -/
structure RedisSettings where
  url : String
  keyPrefix : String
  deriving DecidableEq, Repr

/-- The broker. -/
structure BrokerSettings where
  environment : String
  baseUrl : Option String
  defaultAccount : Option String
  userId : Option String
  timeoutSecs : Nat
  requestsPerSecond : Nat
  accounts : List Account
  deriving DecidableEq, Repr

/-- Keys that must not be shown. -/
structure SecretSettings where
  tokenKey : String
  keyHashSecret : String
  deriving DecidableEq, Repr

/-- What a diagnostic shows of the secrets. -/
def SecretSettings.shown (_ : SecretSettings) : String := "SecretsConfig \x7b .. \x7d"

/-- The jobs. -/
structure JobSettings where
  instrumentPageSize : Nat
  backfillStart : Date
  lockAtMostSecs : Nat
  lockAtLeastSecs : Nat
  backfillTime : TimeOfDay
  collectionTime : TimeOfDay
  deriving DecidableEq

/-- The log. -/
structure LogSettings where
  level : String
  format : String
  deriving DecidableEq, Repr

/-- All settings. -/
structure AppSettings where
  database : DatabaseSettings
  redis : RedisSettings
  broker : BrokerSettings
  secrets : SecretSettings
  jobs : JobSettings
  log : LogSettings

namespace DatabaseSettings

/-- The defaults of all but the URL. -/
def start : DatabaseSettings := ⟨"", 5, 30⟩

/-- Reads the section. -/
def decoder : Decoder DatabaseSettings :=
  Decoder.record "DatabaseConfig" [
    Decoder.required "url" Decoder.string fun s v => { s with url := v },
    Decoder.defaulted "max_connections" Decoder.nat32 fun s v => { s with maxConnections := v },
    Decoder.defaulted "connection_timeout_secs" Decoder.nat64
      fun s v => { s with connectionTimeoutSecs := v }]
    start

end DatabaseSettings

namespace RedisSettings

/-- The defaults. -/
def start : RedisSettings := ⟨"redis://localhost:6379/0", "collector"⟩

/-- Reads the section. -/
def decoder : Decoder RedisSettings :=
  Decoder.record "RedisConfig" [
    Decoder.defaulted "url" Decoder.string fun s v => { s with url := v },
    Decoder.defaulted "key_prefix" Decoder.string fun s v => { s with keyPrefix := v }]
    start

end RedisSettings

/-- Reads an account. -/
def Account.decoder : Decoder Account :=
  Decoder.record "AccountSettings" [
    Decoder.required "name" Decoder.string fun a v => { a with name := v },
    Decoder.required "account_number" Decoder.string fun a v => { a with number := v },
    Decoder.required "app_key" Decoder.string fun a v => { a with appKey := v },
    Decoder.required "app_secret" Decoder.string fun a v => { a with appSecret := v }]
    ⟨"", "", "", ""⟩

namespace BrokerSettings

/-- The defaults. -/
def start : BrokerSettings := ⟨"real", none, none, none, 10, 20, []⟩

/-- Reads the section. -/
def decoder : Decoder BrokerSettings :=
  Decoder.record "KisSettings" [
    Decoder.defaulted "environment" Decoder.string fun s v => { s with environment := v },
    Decoder.defaulted "base_url" (Decoder.option Decoder.string)
      fun s v => { s with baseUrl := v },
    Decoder.defaulted "default_account" (Decoder.option Decoder.string)
      fun s v => { s with defaultAccount := v },
    Decoder.defaulted "user_id" (Decoder.option Decoder.string) fun s v => { s with userId := v },
    Decoder.defaulted "timeout_secs" Decoder.nat64 fun s v => { s with timeoutSecs := v },
    Decoder.defaulted "requests_per_second" Decoder.nat32
      fun s v => { s with requestsPerSecond := v },
    Decoder.defaulted "accounts" (Decoder.list Account.decoder)
      fun s v => { s with accounts := v }]
    start

end BrokerSettings

/-- Reads the secrets. -/
def SecretSettings.decoder : Decoder SecretSettings :=
  Decoder.record "SecretsConfig" [
    Decoder.required "token_key" Decoder.string fun s v => { s with tokenKey := v },
    Decoder.required "key_hash_secret" Decoder.string fun s v => { s with keyHashSecret := v }]
    ⟨"", ""⟩

namespace JobSettings

/-- The first day of the years that a backfill covers, 1900-01-01. -/
def defaultStart : Date := ⟨(CivilDate.mk 1900 1 1).dayNumber, by decide⟩

/-- The defaults: backfill at three in the morning, collection at half past six in the evening. -/
def start : JobSettings :=
  ⟨100, defaultStart, 1800, 300, { seconds := 10800, nanos := 0 }, { seconds := 66600, nanos := 0 }⟩

/-- Reads the section. -/
def decoder : Decoder JobSettings :=
  Decoder.record "JobsConfig" [
    Decoder.defaulted "instrument_page_size" Decoder.size
      fun s v => { s with instrumentPageSize := v },
    Decoder.defaulted "backfill_start_date" Decoder.date fun s v => { s with backfillStart := v },
    Decoder.defaulted "lock_at_most_secs" Decoder.nat64 fun s v => { s with lockAtMostSecs := v },
    Decoder.defaulted "lock_at_least_secs" Decoder.nat64 fun s v => { s with lockAtLeastSecs := v },
    Decoder.defaulted "backfill_time" Decoder.timeOfDay fun s v => { s with backfillTime := v },
    Decoder.defaulted "collection_time" Decoder.timeOfDay
      fun s v => { s with collectionTime := v }]
    start

end JobSettings

namespace LogSettings

/-- The defaults. -/
def start : LogSettings := ⟨"info", "pretty"⟩

/-- Reads the section. -/
def decoder : Decoder LogSettings :=
  Decoder.record "LoggingConfig" [
    Decoder.required "level" Decoder.string fun s v => { s with level := v },
    Decoder.required "format" Decoder.string fun s v => { s with format := v }]
    start

end LogSettings

namespace AppSettings

/-- The defaults of all sections that have them. -/
def start : AppSettings :=
  ⟨DatabaseSettings.start, RedisSettings.start, BrokerSettings.start, ⟨"", ""⟩, JobSettings.start,
    LogSettings.start⟩

/-- Reads all sections. -/
def decoder : Decoder AppSettings :=
  Decoder.record "AppConfig" [
    Decoder.required "database" DatabaseSettings.decoder fun s v => { s with database := v },
    Decoder.defaulted "redis" RedisSettings.decoder fun s v => { s with redis := v },
    Decoder.defaulted "kis" BrokerSettings.decoder fun s v => { s with broker := v },
    Decoder.required "secrets" SecretSettings.decoder fun s v => { s with secrets := v },
    Decoder.defaulted "jobs" JobSettings.decoder fun s v => { s with jobs := v },
    Decoder.defaulted "logging" LogSettings.decoder fun s v => { s with log := v }]
    start

/-- The first thing that keeps the program from starting. -/
def validate (s : AppSettings) : Except SetupError Unit := do
  if s.broker.accounts.isEmpty then
    throw (.config "KIS 계좌가 하나도 설정되지 않았습니다 (kis.accounts 또는 KIS_APP_KEY 등)")
  match s.broker.defaultAccount with
  | some name =>
    unless s.broker.accounts.any (·.name == name) do
      throw (.config ("기본 계좌 '" ++ name ++ "'가 계좌 목록에 없습니다"))
  | none => pure ()
  if s.broker.requestsPerSecond = 0 then
    throw (.config "kis.requests_per_second는 0보다 커야 합니다")
  if s.jobs.instrumentPageSize = 0 then
    throw (.config "jobs.instrument_page_size는 0보다 커야 합니다")
  if s.jobs.lockAtMostSecs < s.jobs.lockAtLeastSecs then
    throw (.config "jobs.lock_at_least_secs가 lock_at_most_secs보다 큽니다")
  let _ ← (TokenSeal.ofText s.secrets.tokenKey).mapError SetupError.crypto
  let _ ← (AccountHasher.ofText s.secrets.keyHashSecret).mapError SetupError.crypto

end AppSettings

end DailyBars
