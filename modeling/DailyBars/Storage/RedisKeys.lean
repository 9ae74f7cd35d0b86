import DailyBars.Storage.Redis

/-!
# What a Redis server keeps

The keys of a server, and what each command does to them in one step. A key that was set for a time
is there exactly until that time is over: `find?_insert` and `find?_erase` say what is found after a
change.
-/

namespace DailyBars

/-- A key with its value and the uptime at which it is gone, in nanoseconds. -/
structure RedisKey where
  name : String
  value : String
  expiresAt : Nat
  deriving DecidableEq, Repr

/-- The keys of a server, those that are gone included until their names are used again. -/
structure RedisKeys where
  entries : List RedisKey
  deriving DecidableEq, Repr

namespace RedisKeys

/-- A server without keys. -/
def empty : RedisKeys := ⟨[]⟩

/-- The key of a name at a given uptime. -/
def find? (s : RedisKeys) (now : Nat) (name : String) : Option RedisKey :=
  (s.entries.find? (·.name == name)).filter fun k => decide (now < k.expiresAt)

/-- The keys without the one of a name. -/
def erase (s : RedisKeys) (name : String) : RedisKeys :=
  ⟨s.entries.filter (·.name != name)⟩

/-- The keys with one more, which replaces the one of its name. -/
def insert (s : RedisKeys) (k : RedisKey) : RedisKeys := ⟨k :: (s.erase k.name).entries⟩

/-! ### Looking up -/

@[simp] theorem find?_empty (now : Nat) (name : String) : empty.find? now name = none := rfl

theorem find?_erase (s : RedisKeys) (now : Nat) (name other : String) :
    (s.erase name).find? now other = if other = name then none else s.find? now other := by
  have h : (s.erase name).entries.find? (·.name == other) =
      if other = name then none else s.entries.find? (·.name == other) := by
    simp only [erase]
    induction s.entries with
    | nil => simp
    | cons k rest ih =>
      by_cases hk : k.name = name
      · by_cases ho : other = name
        · simp_all
        · have : k.name ≠ other := fun e => ho (e ▸ hk)
          simp_all
      · by_cases ho : k.name = other
        · have : other ≠ name := fun e => hk (ho.trans e)
          simp_all
        · simp_all
  unfold find?
  rw [h]
  split <;> rfl

theorem find?_insert (s : RedisKeys) (now : Nat) (k : RedisKey) (name : String) :
    (s.insert k).find? now name =
      if name = k.name then (if now < k.expiresAt then some k else none)
      else s.find? now name := by
  by_cases h : name = k.name
  · simp [find?, insert, h, Option.filter]
  · have hk : (k.name == name) = false := by simpa using fun e => h e.symm
    have he := find?_erase s now k.name name
    simp only [h, if_false] at he ⊢
    rw [← he]
    simp [find?, insert, hk]

/-! ### Commands -/

/-- The nanoseconds of a number of milliseconds. -/
def millis (n : Nat) : Nat := n * 1000000

/-- Gives a lock back: if the key still holds the token, it is kept for the hold, or deleted if
there is none. -/
def release (s : RedisKeys) (now : Nat) (name token : String) (hold : Nat) :
    RedisReply × RedisKeys :=
  match s.find? now name with
  | none => (.int 0, s)
  | some k =>
    if k.value ≠ token then (.int 0, s)
    else if hold = 0 then (.int 1, s.erase name)
    else (.int 1, s.insert { k with expiresAt := now + millis hold })

/-- Runs a command at a given uptime. -/
def run (s : RedisKeys) (now : Nat) : RedisCommand → RedisReply × RedisKeys
  | .get name =>
    match s.find? now name with
    | some k => (.text k.value, s)
    | none => (.nil, s)
  | .setFor name value ttl => (.status "OK", s.insert ⟨name, value, now + millis ttl⟩)
  | .setIfAbsent name value ttl =>
    if (s.find? now name).isSome then (.nil, s)
    else (.status "OK", s.insert ⟨name, value, now + millis ttl⟩)
  | .release name token hold => s.release now name token hold
  | .loadRelease => (.text releaseDigest, s)

/-- A connection, on which a command takes no time, to the server in a part of the world. -/
def link {σ : Type} (p : Part σ RedisKeys) : RedisLink σ := fun c => ExceptT.mk do
  let now ← Act.uptime
  Act.onPart p fun s => (.ok (s.run now c).1, (s.run now c).2)

end RedisKeys

end DailyBars
