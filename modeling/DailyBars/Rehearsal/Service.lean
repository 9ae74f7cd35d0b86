import DailyBars.Program.Collector
import DailyBars.Rehearsal.Database
import DailyBars.Rehearsal.Redis
import DailyBars.Rehearsal.Server
import DailyBars.Settings.App

/-!
# The rehearsal of the whole collector

A collector that was put together from settings, against three servers with scripts. They can be
reached at ports of the machine itself, and nobody else can be reached.
-/

namespace DailyBars

/-- The world of a rehearsal of the whole collector. -/
structure ServiceWorld where
  /-- Whether the servers are there. -/
  isServed : Bool
  database : RehearsalDatabase
  redis : RehearsalRedis
  server : RehearsalServer
  desk : TokenDesk
  pacing : Pacing
  /-- The number of identifiers that were given out. -/
  ids : Nat

namespace ServiceWorld

/-- The database. -/
def databasePart : Part ServiceWorld RehearsalDatabase :=
  ⟨(·.database), fun d w => { w with database := d }⟩

/-- The Redis server. -/
def redisPart : Part ServiceWorld RehearsalRedis := ⟨(·.redis), fun r w => { w with redis := r }⟩

/-- The broker's server. -/
def serverPart : Part ServiceWorld RehearsalServer :=
  ⟨(·.server), fun s w => { w with server := s }⟩

/-- Whether a host is the machine itself. -/
def isHere (host : String) : Bool := host == "127.0.0.1" || host == "localhost"

/-- Connects to something that is there or not. -/
def connect {α : Type} (isThere : ServiceWorld → Bool) (link : α) :
    Attempt ServiceWorld DataError α :=
  ExceptT.mk (Act.onWorld fun w =>
    (if isThere w then .ok link else .error (.connection "Connection refused"), w))

/-- Connects to the database. A pool without connections never gives one out. -/
def connectDatabase (a : DatabaseAddress) (connections : Nat) :
    Attempt ServiceWorld DataError (DatabaseLink ServiceWorld) :=
  connect (fun w => w.isServed && isHere a.host && a.port == 5432 && !a.needsTls &&
    connections != 0) (RehearsalDatabase.link databasePart)

/-- Whether the Redis server can be reached at a place. -/
def isRedisAt : RedisPlace → Bool
  | .port host number => isHere host && number == RedisAddress.defaultPort
  | .file _ => false

/-- Connects to the Redis server. -/
def connectRedis (a : RedisAddress) : Attempt ServiceWorld DataError (RedisLink ServiceWorld) :=
  connect (fun w => w.isServed && isRedisAt a.place) (RehearsalRedis.link redisPart)

/-- What the collector finds outside. -/
def outside : Outside ServiceWorld where
  database := connectDatabase
  migrations := RehearsalDatabase.record databasePart
  redis := connectRedis
  http := RehearsalServer.exchange serverPart
  desk := ⟨(·.desk), fun d w => { w with desk := d }⟩
  pacing := ⟨(·.pacing), fun p w => { w with pacing := p }⟩
  holder := "collector-<pid>"
  freshId := Act.onWorld fun w => (freshIdOf w.ids, { w with ids := w.ids + 1 })
  freshNonce := return .ofBytes []

/-- A token as the Redis server keeps it. -/
def sealed (k : Option TokenSeal) (token : String) : String :=
  ((k.bind fun k => (k.encrypt (.ofBytes [1]) token).toOption)).getD token

/-- Reads a world from the scripts of its servers. -/
def ofJson (isServed : Bool) (k : Option TokenSeal) (j : Json) : ServiceWorld where
  isServed
  database := { RehearsalDatabase.ofAnswers ((j.at! "pg").entries.map fun (name, answers) =>
      (name, answers.items.map (DatabaseAnswer.ofJson name))) with
    refusals := RehearsalDatabase.refusalsOfJson (j.at! "pg_simple"), migrations := .ofJson j }
  redis := .ofScript (.byWord ((j.at! "redis").entries.map fun (word, answers) =>
    (word, answers.items.map (RedisAnswer.ofJson (sealed k)))) .empty)
  server := .ofJson (if isServed then "127.0.0.1:8080" else "") (j.at! "http")
  desk := .empty
  pacing := .start 1 0
  ids := 0

/-- What the servers were asked since they were last looked at, tokens opened with a seal. -/
def takeReport (k : Option TokenSeal) (shows : Statement → Bool) :
    Act ServiceWorld (List (String × Json)) :=
  Act.onWorld fun w =>
    ([("redis", .list (w.redis.commands.map fun c => (c.opened k).toJson)),
      ("http", .list (w.server.requests.map (·.toJson))),
      ("pg", .list ((w.database.statements.filter shows).map (·.toJson)))],
      { w with redis.commands := [], server.requests := [], database.statements := [] })

/-- The settings that make the collector use the servers of the rehearsal. -/
def servedSettings : Json := .obj [
  ("database", .obj [("url", .str "postgres://u:p@127.0.0.1:5432/db?sslmode=disable"),
    ("max_connections", .nat 1)]),
  ("redis", .obj [("url", .str "redis://127.0.0.1:6379/")]),
  ("kis", .obj [("base_url", .str "http://127.0.0.1:8080"),
    ("requests_per_second", .nat 4294967295)])]

end ServiceWorld

/-- What became of a job, its outcome told with the given wording of failures. -/
def JobRun.toJson (wording : CollectError → Bool) :
    JobRun (Except CollectError Outcome) → Json
  | .skipped => .obj [("executed", .bool false), ("run", .null)]
  | .brokenOff => failureToJson "panic" none
  | .executed r => .obj [("executed", .bool true),
      ("run", resultToJson (fun e => e.toJsonWith (wording e)) Outcome.toJson r)]

end DailyBars
