import DailyBars.Cipher.Secrets
import DailyBars.Json.Lookup
import DailyBars.Storage.Interface

/-!
# A shelf for texts that expire

A store of texts in memory that can be told to refuse reading or writing. An entry that has expired
is not given out any more, but it stays to be seen.
-/

namespace DailyBars

/-- A text on the shelf. Times are uptimes and lengths of time in nanoseconds. -/
structure ShelfEntry where
  key : String
  value : String
  storedAt : Nat
  /-- How long it is given out; for good if there is none. -/
  ttl : Option Nat
  deriving DecidableEq, Repr

/-- The entries, one for each key, and what is refused. -/
structure RehearsalShelf where
  entries : List ShelfEntry
  refusesReading : Bool
  refusesWriting : Bool
  deriving DecidableEq, Repr

namespace RehearsalShelf

variable {σ : Type}

/-- A shelf with nothing on it. -/
def empty : RehearsalShelf := ⟨[], false, false⟩

/-- The text that a key gives at a given uptime. -/
def find? (s : RehearsalShelf) (key : String) (now : Nat) : Option String :=
  ((s.entries.find? (·.key == key)).filter fun e =>
    match e.ttl with
    | some ttl => decide (now < e.storedAt + ttl)
    | none => true).map (·.value)

/-- Puts an entry in the place of the one of its key. -/
def put (s : RehearsalShelf) (e : ShelfEntry) : RehearsalShelf :=
  { s with entries := s.entries.filter (·.key != e.key) ++ [e] }

/-- What is said when the shelf refuses. -/
def refusal : StorageError := .connection "redis down"

/-- The shelf in a part of the world. -/
def store (p : Part σ RehearsalShelf) : ExpiringStore σ where
  get key := ExceptT.mk do
    let now ← Act.uptime
    Act.onPart p fun s => (if s.refusesReading then .error refusal else .ok (s.find? key now), s)
  set key value ttl := ExceptT.mk do
    let now ← Act.uptime
    Act.onPart p fun s =>
      if s.refusesWriting then (.error refusal, s)
      else (.ok (), s.put ⟨key, value, now, some ttl⟩)

/-- Writes what is on the shelf, the texts opened with a seal. -/
def toJson (tokenSeal : TokenSeal) (s : RehearsalShelf) : Json :=
  .obj (s.entries.map fun e => (e.key, .obj [
    ("token", .str? (tokenSeal.decrypt e.value).toOption),
    ("ttl_ms", Json.orNull (fun t => .nat (t / 1000000)) e.ttl)]))

end RehearsalShelf

end DailyBars
