import DailyBars.Market.Bar
import DailyBars.Market.Instrument
import DailyBars.Session
import DailyBars.Storage.Error

/-!
# The stores that the collector needs

Four of them: the watchlist, the bars, the store of values that expire, and the locks of the jobs.
Each is a record of attempts over a world of whatever type.
-/

namespace DailyBars

/-- The watchlist. -/
structure Watchlist (σ : Type) where
  /-- At most `limit` instruments with the given completion flag and an id after the given one, in
  the order of their ids. Paging goes by the last id seen, so a flag that changes on the way makes
  no instrument of a later page go missing. -/
  findPage : (completed : Bool) → (after : Option Int) → (limit : Nat) →
    Attempt σ StorageError (List Instrument)

/-- The store of bars, with at most one transaction open. What is done in a transaction is kept by
`commit` and dropped by `rollback`. -/
structure PriceStore (σ : Type) where
  begin : Attempt σ StorageError Unit
  /-- The days from the first to the last date for which the key has a bar. -/
  existingDates : InstrumentKey → Date → Date → Attempt σ StorageError (List Date)
  /-- Inserts bars, and gives the number of those that were inserted. -/
  saveAll : InstrumentKey → List Bar → Attempt σ StorageError Nat
  /-- Marks the history of an instrument as complete. -/
  markCompleted : Int → Attempt σ StorageError Unit
  commit : Attempt σ StorageError Unit
  rollback : Act σ Unit

/-- A store of texts that expire. -/
structure ExpiringStore (σ : Type) where
  get : String → Attempt σ StorageError (Option String)
  /-- Stores a value for a number of nanoseconds. -/
  set : (key value : String) → (ttl : Nat) → Attempt σ StorageError Unit

/-- A lock that was acquired; times are uptimes and lengths of time in nanoseconds. -/
structure RunLock where
  name : String
  /-- What tells this acquisition from every other. -/
  token : String
  acquiredAt : Nat
  atLeast : Nat
  atMost : Nat
  deriving DecidableEq, Repr

/-- How much longer a lock that is released at a given uptime must be kept: the rest of `atLeast`,
or nothing if it is over. -/
def RunLock.remainingHold (l : RunLock) (now : Nat) : Option Nat :=
  let rest := l.atLeast - (now - l.acquiredAt)
  if rest = 0 then none else some rest

/-- Why a lock was neither given nor refused, or was not taken back. -/
inductive LockError where
  /-- The store of the locks has failed. -/
  | store (e : StorageError)
  /-- The lock would be kept until an uptime that no clock can show. Whoever asks for it, or gives it
  back, breaks off there. -/
  | beyondClock
  deriving DecidableEq, Repr

/-- The locks of the jobs. A lock expires `atMost` after it was acquired; after its release nobody
else gets it before `atLeast` is over. -/
structure RunLocks (σ : Type) where
  /-- Nothing is given when somebody else holds the lock. -/
  tryAcquire : (name : String) → (atMost atLeast : Nat) → Attempt σ LockError (Option RunLock)
  release : RunLock → Attempt σ LockError Unit

end DailyBars
