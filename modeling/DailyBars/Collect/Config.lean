import DailyBars.Settings.App

/-!
# Configuration of the collector
-/

namespace DailyBars

/-- The two jobs. -/
inductive Job where
  /-- The prices of a day for every instrument whose history is complete. -/
  | collection
  /-- The history of every instrument whose history is not complete. -/
  | backfill
  deriving DecidableEq, Repr

namespace Job

/-- The name of the job and of its lock. -/
def name : Job → String
  | collection => "collectDailyPrices"
  | backfill => "backfillHistoricalPrices"

/-- The completion flag of the instruments that the job visits. -/
def visitsCompleted : Job → Bool
  | collection => true
  | backfill => false

end Job

/-- How a batch runs. -/
structure BatchConfig where
  /-- Instruments a page of the watchlist. -/
  instrumentPageSize : Nat
  /-- The greatest number of rows in an answer of the broker. -/
  pricePageSize : Nat
  /-- Where the history begins. -/
  backfillStart : Date
  deriving DecidableEq

/-- How long a job's lock is held, in nanoseconds. -/
structure LockTerms where
  /-- The store lets go of the lock after this time. -/
  atMost : Nat
  /-- Nobody else gets the lock before this time, even if it was given back. -/
  atLeast : Nat
  deriving DecidableEq, Repr

/-- When the jobs start each day, in Seoul. -/
structure DailyTimes where
  backfill : TimeOfDay
  collection : TimeOfDay
  deriving DecidableEq

/-- The configuration of the collector. -/
structure CollectConfig where
  batch : BatchConfig
  lock : LockTerms
  times : DailyTimes
  deriving DecidableEq

namespace CollectConfig

/-- The greatest number of rows in an answer of the broker. -/
def pricePageSize : Nat := 100

/-- The configuration that the settings of the jobs ask for. -/
def ofJobs (s : JobSettings) : CollectConfig where
  batch := ⟨max s.instrumentPageSize 1, pricePageSize, s.backfillStart⟩
  lock := ⟨s.lockAtMostSecs * 1000000000, s.lockAtLeastSecs * 1000000000⟩
  times := ⟨s.backfillTime, s.collectionTime⟩

end CollectConfig

end DailyBars
