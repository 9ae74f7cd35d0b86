import DailyBars.Storage.Interface
import DailyBars.Text.Quoted

/-!
# Redis

Texts that expire and locks that several processes share, in a Redis server. A lock is a key that is
set only if it is not there, with the token of its holder and a time to live; it is given back by a
script, which the server runs as one step.
-/

namespace DailyBars

/-- The script that gives a lock back. If the key still holds the token, its time to live is cut
down to the hold, or the key is deleted if there is none. -/
def releaseScript : String := "
if redis.call('GET', KEYS[1]) == ARGV[1] then
    local hold = tonumber(ARGV[2])
    if hold > 0 then
        return redis.call('PEXPIRE', KEYS[1], hold)
    end
    return redis.call('DEL', KEYS[1])
end
return 0
"

/-- The name by which the server knows the script: its SHA-1 digest. -/
def releaseDigest : String := "6c190a62cc6b44507fe4fd1ab77e39eb6aded824"

/-- A command to the server. Times are milliseconds. -/
inductive RedisCommand where
  | get (key : String)
  /-- Sets a key for a time. -/
  | setFor (key value : String) (ttl : Nat)
  /-- Sets a key for a time, unless it is there. -/
  | setIfAbsent (key value : String) (ttl : Nat)
  /-- Runs the script that gives a lock back. -/
  | release (key token : String) (hold : Nat)
  /-- Makes the script known to the server. -/
  | loadRelease
  deriving DecidableEq, Repr

/-- The words of a command. -/
def RedisCommand.words : RedisCommand → List String
  | get key => ["GET", key]
  | setFor key value ttl => ["PSETEX", key, Text.decimalText ttl, value]
  | setIfAbsent key value ttl => ["SET", key, value, "NX", "PX", Text.decimalText ttl]
  | release key token hold => ["EVALSHA", releaseDigest, "1", key, token, Text.decimalText hold]
  | loadRelease => ["SCRIPT", "LOAD", releaseScript]

/-- What the server answers. -/
inductive RedisReply where
  | nil
  | text (s : String)
  /-- A status, such as `OK`. -/
  | status (s : String)
  | int (n : Int)
  deriving DecidableEq, Repr

/-- Why a command got no answer that can be used. -/
inductive RedisError where
  /-- The server refused. -/
  | refused (text : String)
  /-- The connection is gone. -/
  | closed
  /-- The answer is not of the kind that was expected. -/
  | unexpected (wanted : String) (reply : RedisReply)
  deriving DecidableEq, Repr

/-- What a diagnostic shows of a reply. -/
def RedisReply.shown : RedisReply → String
  | nil => "nil"
  | text s => "bulk-string('" ++ Text.quoted s ++ "')"
  | status s => if s = "OK" then "ok" else "simple-string(" ++ Text.quoted s ++ ")"
  | int n => "int(" ++ Text.integerText n ++ ")"

namespace RedisError

/-- The kinds of refusal, by the word with which the server begins. -/
def kinds : List (String × String) := [
  ("ERR", "ResponseError"), ("EXECABORT", "ExecAbortError"), ("LOADING", "BusyLoadingError"),
  ("NOSCRIPT", "NoScriptError"), ("MOVED", "Moved"), ("ASK", "Ask"), ("TRYAGAIN", "TryAgain"),
  ("CLUSTERDOWN", "ClusterDown"), ("CROSSSLOT", "CrossSlot"), ("MASTERDOWN", "MasterDown"),
  ("READONLY", "ReadOnly"), ("NOTBUSY", "NotBusy")]

/-- The first word of a refusal and the rest of it. -/
def splitWord (text : String) : String × Option String :=
  let cs := text.toList
  let word := cs.takeWhile (· ≠ ' ')
  let rest := cs.drop word.length
  (String.ofList word, if rest.isEmpty then none else some (String.ofList rest.tail))

/-- Whether the server does not know the script. -/
def isUnknownScript : RedisError → Bool
  | refused text => (splitWord text).1 == "NOSCRIPT"
  | _ => false

/-- The wording of a failure. -/
def message : RedisError → String
  | refused text =>
    let (word, detail) := splitWord text
    match kinds.lookup word, detail with
    | some kind, some detail => "An error was signalled by the server - " ++ kind ++ ": " ++ detail
    | some kind, none => "An error was signalled by the server- " ++ kind
    | none, detail => word ++ ": " ++ detail.getD "Unknown extension error encountered"
  | closed => "broken pipe"
  | unexpected wanted reply =>
    "Response was of incompatible type - TypeError: " ++ Text.quoted wanted ++ " (response was " ++
      reply.shown ++ ")"

end RedisError

/-- The failure of the store behind a failed command. -/
def DataError.ofRedis (e : RedisError) : DataError := .cache e.message

/-- A connection to a server. -/
abbrev RedisLink (σ : Type) := RedisCommand → Attempt σ RedisError RedisReply

namespace RedisReply

/-- The text of a reply, if there is one. -/
def toText? : RedisReply → Option String
  | nil => none
  | text s | status s => some s
  | int n => some (Text.integerText n)

/-- The number of a reply. -/
def toInt (r : RedisReply) : Except RedisError Int :=
  match r with
  | int n => .ok n
  | nil | status "OK" => .error (.unexpected "Response type not convertible to numeric." r)
  | text s | status s =>
    match Text.readInt? s.toList with
    | some n => .ok n
    | none => .error (.unexpected "Could not convert from string." r)

end RedisReply

/-- A time to live in milliseconds, for a length of time in nanoseconds: at least one, so that a key
is not refused, and at most what fits the server's numbers. -/
def redisTtl (nanos : Nat) : Nat := max 1 (min (nanos / 1000000) (UInt64.size - 1))

/-- A Redis server as the collector uses it. -/
structure RedisCache (σ : Type) where
  link : RedisLink σ
  /-- What the keys of the locks begin with. -/
  keyPrefix : String

namespace RedisCache

variable {σ : Type}

/-- Sends a command. -/
def send (c : RedisCache σ) (command : RedisCommand) : Attempt σ DataError RedisReply :=
  (c.link command).orElseAs .ofRedis

/-- The text of a key. -/
def get (c : RedisCache σ) (key : String) : Attempt σ DataError (Option String) := do
  return (← c.send (.get key)).toText?

/-- Sets a key for a number of nanoseconds. -/
def set (c : RedisCache σ) (key value : String) (ttl : Nat) : Attempt σ DataError Unit := do
  let _ ← c.send (.setFor key value (redisTtl ttl))

/-- The key of a lock. -/
def lockKey (c : RedisCache σ) (name : String) : String := c.keyPrefix ++ ":lock:" ++ name

/-- Takes a lock for a number of nanoseconds, unless it is taken. -/
def acquireLock (c : RedisCache σ) (name token : String) (ttl : Nat) :
    Attempt σ DataError Bool := do
  return (← c.send (.setIfAbsent (c.lockKey name) token (redisTtl ttl))).toText?.isSome

/-- Runs the script that gives a lock back. A server that does not know it is told it first. -/
def runRelease (c : RedisCache σ) (key token : String) (hold : Nat) :
    Attempt σ RedisError RedisReply :=
  ExceptT.mk do
    match ← (c.link (.release key token hold)).run with
    | .ok reply => return .ok reply
    | .error e =>
      if e.isUnknownScript then
        match ← (c.link .loadRelease).run with
        | .ok _ => (c.link (.release key token hold)).run
        | .error e => return .error e
      else return .error e

/-- Gives a lock back, to be kept for some more nanoseconds, and says whether it was still held. The
hold is sent as a number of 64 bits. -/
def releaseLock (c : RedisCache σ) (name token : String) (hold : Nat) :
    Attempt σ DataError Bool := do
  let millis := hold / 1000000 % UInt64.size
  let reply ← (c.runRelease (c.lockKey name) token millis).orElseAs .ofRedis
  let n ← (Attempt.ofResult reply.toInt).orElseAs .ofRedis
  return 0 < n

/-- The server as a store of texts that expire. -/
def store (c : RedisCache σ) : ExpiringStore σ where
  get key := (c.get key).orElseAs (·.toStorage)
  set key value ttl := (c.set key value ttl).orElseAs (·.toStorage)

/-- The server as the keeper of the jobs' locks. The token of an acquisition is the name of the
holder and an identifier that nobody used before. -/
def locks (c : RedisCache σ) (holder : String) (freshId : Act σ String) : RunLocks σ where
  tryAcquire name atMost atLeast := do
    let token := holder ++ ":" ++ (← Attempt.ofAct freshId)
    let now ← Attempt.ofAct Act.uptime
    if ← (c.acquireLock name token atMost).orElseAs (.store ·.toStorage) then
      Attempt.ofAct (Act.emit .debug .redis "Run lock acquired" [("lock", .text name)])
      return some ⟨name, token, now, atLeast, atMost⟩
    else return none
  release lock := do
    let now ← Attempt.ofAct Act.uptime
    let hold := (lock.remainingHold now).getD 0
    if ← (c.releaseLock lock.name lock.token hold).orElseAs (.store ·.toStorage) then
      Attempt.ofAct (Act.emit .debug .redis "Run lock released"
        [("lock", .text lock.name), ("hold_ms", .nat (hold / 1000000 % UInt64.size))])
    else
      Attempt.ofAct (Act.emit .debug .redis "Run lock already expired or taken over"
        [("lock", .text lock.name)])

end RedisCache

end DailyBars
