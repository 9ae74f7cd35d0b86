import DailyBars.Broker.Client
import DailyBars.Broker.TokenCache
import DailyBars.Collect.LockedRun
import DailyBars.Storage.Database
import DailyBars.Storage.DatabaseAddress
import DailyBars.Storage.Migration
import DailyBars.Storage.Redis
import DailyBars.Storage.RedisAddress

/-!
# Assembling a collector

A collector is put together from the settings and from what it finds outside: a database, a Redis
server and the broker's server. The connections come first, so that a wrong address is told before a
wrong secret.
-/

namespace DailyBars

/-- What a process finds outside, in a world of type `σ`. -/
structure Outside (σ : Type) where
  /-- Connects to a database, with a number of connections at most. -/
  database : DatabaseAddress → (connections : Nat) → Attempt σ DataError (DatabaseLink σ)
  /-- What the database remembers of migrations. -/
  migrations : Attempt σ DatabaseError MigrationRecord
  /-- Connects to a Redis server. -/
  redis : RedisAddress → Attempt σ DataError (RedisLink σ)
  http : HttpExchange σ
  desk : Part σ TokenDesk
  pacing : Part σ Pacing
  /-- The name of the process at the locks. -/
  holder : String
  /-- An identifier that nobody used before. -/
  freshId : Act σ String
  freshNonce : Act σ Nonce

/-- Why a collector was not put together. -/
inductive AssemblyError where
  | store (cause : DataError)
  | config (reason : String)
  deriving DecidableEq, Repr

namespace AssemblyError

/-- The failure as the collector reports it. -/
def toCollect : AssemblyError → CollectError
  | store e => .ofData e
  | config r => .config r

/-- What a diagnostic shows of a failure. -/
def shown : AssemblyError → String
  | store e => "Storage(" ++ e.toStorage.shown ++ ")"
  | config r => "Config(" ++ Text.quoted r ++ ")"

end AssemblyError

/-- A collector over a world of type `σ`. -/
structure Collector (σ : Type) where
  config : CollectConfig
  batch : Batch σ
  locks : RunLocks σ
  database : DatabaseLink σ
  migrations : Attempt σ DatabaseError MigrationRecord

namespace Collector

variable {σ : Type}

/-- Connects to the database. -/
def connectDatabase (outside : Outside σ) (s : DatabaseSettings) :
    Attempt σ DataError (DatabaseLink σ) := do
  Attempt.ofAct (Act.emit .info .database "Connecting to database..."
    [("max_connections", .nat s.maxConnections)])
  let address ← Attempt.ofResult
    (match DatabaseAddress.ofText? s.url with
    | some a => .ok a
    | none => .error (.connection "error with configuration: the address cannot be read"))
  let link ← outside.database address s.maxConnections
  Attempt.ofAct (Act.emit .info .database "Database connection established" [])
  return link

/-- Connects to the Redis server. -/
def connectRedis (outside : Outside σ) (s : RedisSettings) :
    Attempt σ DataError (RedisCache σ) := do
  Attempt.ofAct (Act.emit .info .redis "Connecting to Redis..." [])
  let address ← Attempt.ofResult
    (match RedisAddress.ofText? s.url with
    | some a => .ok a
    | none => .error (.cache "Redis URL did not parse- InvalidClientConfig"))
  let link ← outside.redis address
  Attempt.ofAct (Act.emit .info .redis "Redis connection established" [])
  return ⟨link, s.keyPrefix⟩

/-- The broker's configuration and the secrets, read from the settings. -/
def credentials (s : AppSettings) :
    Except AssemblyError (BrokerConfig × TokenSeal × AccountHasher) := do
  let config ← (BrokerConfig.ofSettings s.broker).mapError fun e => .config e.message
  let tokenSeal ← (TokenSeal.ofText s.secrets.tokenKey).mapError fun e => .config e.message
  let hasher ← (AccountHasher.ofText s.secrets.keyHashSecret).mapError fun e => .config e.message
  return (config, tokenSeal, hasher)

/-- The client for prices, with its token from the cache. -/
def client (outside : Outside σ) (redis : RedisCache σ) (config : BrokerConfig)
    (tokenSeal : TokenSeal) (hasher : AccountHasher) : PriceClient σ :=
  let tokens : TokenCache σ :=
    { config, issuer := .atServer outside.http config.baseUrl, store := redis.store, tokenSeal,
      hasher, desk := outside.desk, freshNonce := outside.freshNonce }
  ⟨config, outside.http, tokens.defaultToken, outside.pacing⟩

/-- Puts a collector together. -/
def assemble (outside : Outside σ) (s : AppSettings) : Attempt σ AssemblyError (Collector σ) := do
  let database ← (connectDatabase outside s.database).orElseAs .store
  let redis ← (connectRedis outside s.redis).orElseAs .store
  let (broker, tokenSeal, hasher) ← Attempt.ofResult (credentials s)
  let client := client outside redis broker tokenSeal hasher
  let config := CollectConfig.ofJobs s.jobs
  let now ← Attempt.ofAct Act.uptime
  Attempt.ofAct (Act.onPart outside.pacing fun _ => ((), .start broker.requestsPerSecond now))
  Attempt.ofAct (Act.emit .info .context "Collector context ready"
    [("accounts", .nat broker.accounts.length), ("base_url", .text broker.baseUrl)])
  return {
    config
    batch := ⟨database.watchlist, database.prices, client.prices,
      .full config.batch.pricePageSize, config.batch⟩
    locks := redis.locks outside.holder outside.freshId
    database
    migrations := outside.migrations }

/-- Runs a job up to today under its lock. -/
def runJob (c : Collector σ) (job : Job) : Act σ (JobRun (Except CollectError Outcome)) :=
  c.batch.runLocked c.locks c.config.lock job

/-- Brings the schema of the database up to date. -/
def migrate (c : Collector σ) : Attempt σ DataError Unit := Migration.run c.migrations c.database

end Collector

end DailyBars
