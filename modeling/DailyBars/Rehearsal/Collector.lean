import DailyBars.Collect.LockedRun
import DailyBars.Rehearsal.Market
import DailyBars.Rehearsal.Store
import DailyBars.Storage.LocalLocks

/-!
# The rehearsal of a collector

A collector whose store, broker and locks are all in memory.
-/

namespace DailyBars

/-- The world of a rehearsal. -/
structure RehearsalWorld where
  store : RehearsalStore
  market : RehearsalMarket
  locks : LocalLocks

namespace RehearsalWorld

/-- The store. -/
def storePart : Part RehearsalWorld RehearsalStore := ⟨(·.store), fun s w => { w with store := s }⟩

/-- The broker. -/
def marketPart : Part RehearsalWorld RehearsalMarket :=
  ⟨(·.market), fun m w => { w with market := m }⟩

/-- The locks. -/
def locksPart : Part RehearsalWorld LocalLocks := ⟨(·.locks), fun l w => { w with locks := l }⟩

/-- The batch over the world. -/
def batch (strategies : Strategies) (config : BatchConfig) : Batch RehearsalWorld where
  watchlist := RehearsalStore.watchlist storePart
  store := RehearsalStore.prices storePart
  prices := RehearsalMarket.prices marketPart
  strategies
  config

end RehearsalWorld

/-- Locks that are always granted, unless acquiring or releasing one is set to fail. -/
def faultyLocks {σ : Type} (acquireError releaseError : Option StorageError) : RunLocks σ where
  tryAcquire name atMost atLeast :=
    match acquireError with
    | some e => Attempt.ofResult (.error (.store e))
    | none => Attempt.ofAct do return some ⟨name, "granted", ← Act.uptime, atLeast, atMost⟩
  release _ :=
    match releaseError with
    | some e => Attempt.ofResult (.error (.store e))
    | none => Attempt.ofResult (.ok ())

end DailyBars
