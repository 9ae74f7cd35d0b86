import DailyBars.Calendar.Seoul
import DailyBars.Collect.Config
import DailyBars.Collect.Outcome
import DailyBars.Collect.Strategy

/-!
# Batches

A batch goes through the watchlist page by page and visits each instrument in a transaction of its
own. A visit that fails is counted and logged, and the next instrument is visited; only a page of
the watchlist that cannot be loaded ends the batch early.
-/

namespace DailyBars

/-- What a batch works with. -/
structure Batch (σ : Type) where
  watchlist : Watchlist σ
  store : PriceStore σ
  prices : DailyPrices σ
  strategies : Strategies
  config : BatchConfig

namespace Batch

variable {σ : Type}

/-- The work of a job on an instrument inside a transaction. -/
def work (b : Batch σ) (job : Job) (s : Strategy) (i : Instrument) (start last : Date) :
    Attempt σ CollectError Nat :=
  match job with
  | .collection => s.collect b.prices b.store i start last
  | .backfill => do
    let saved ← s.backfill b.prices b.store i start last
    (b.store.markCompleted i.id).orElseAs .storage
    return saved

/-- The work of a job on an instrument in a transaction of its own, which is kept if nothing failed
and rolled back otherwise. -/
def process (b : Batch σ) (job : Job) (i : Instrument) (start last : Date) :
    Attempt σ CollectError Nat := do
  let s ← Attempt.ofResult ((b.strategies.find i.assetType).mapError .dispatch)
  b.store.begin.orElseAs .storage
  Attempt.onFailure
    (do
      let saved ← b.work job s i start last
      b.store.commit.orElseAs .storage
      return saved)
    (fun _ => b.store.rollback)

/-- Logs why a visit failed; trouble with a store is an alert. -/
def logFailure (job : Job) (i : Instrument) (e : CollectError) : Act σ Unit :=
  let name := ("job", LogValue.text job.name)
  let code := ("stock_code", LogValue.text i.stockCode)
  let text := ("error", LogValue.text e.message)
  match e.kind with
  | .recoverable =>
    Act.emit .warn .batch "Broker request failed, will retry on next run" [name, code, text]
  | .critical =>
    Act.emit .error .batch "Storage failure" [name, code, ("alert", .bool true), text]
  | .unexpected => Act.emit .error .batch "Unexpected failure" [name, code, text]

/-- Visits an instrument and counts it. -/
def visit (b : Batch σ) (job : Job) (start last : Date) (o : Outcome) (i : Instrument) :
    Act σ Outcome := do
  if i.assetType.isNone then
    Act.emit .warn .batch "Asset type is missing, skipping instrument"
      [("job", .text job.name), ("id", .int i.id), ("stock_code", .text i.stockCode)]
    return o.addSkipped
  match ← (b.process job i start last).run with
  | .ok saved => return o.addSuccess saved
  | .error e =>
    logFailure job i e
    return o.addFailure e.kind

/-- Visits a list of instruments. -/
def visitAll (b : Batch σ) (job : Job) (start last : Date) (o : Outcome) :
    List Instrument → Act σ Outcome
  | [] => return o
  | i :: is => do
    let o ← b.visit job start last o i
    b.visitAll job start last o is

/-- Loads a page of the watchlist; a failure is an alert. -/
def loadPage (b : Batch σ) (job : Job) (after : Option Int) :
    Attempt σ CollectError (List Instrument) :=
  Attempt.orElseAs
    (Attempt.onFailure
      (b.watchlist.findPage job.visitsCompleted after b.config.instrumentPageSize)
      fun e => Act.emit .error .batch "Failed to load instrument page"
        [("job", .text job.name), ("alert", .bool true), ("error", .text e.message)])
    .storage

/-- Visits page after page of the watchlist, `fuel` pages at most. -/
def visitPages (b : Batch σ) (job : Job) (start last : Date) (after : Option Int) (o : Outcome) :
    (fuel : Nat) → Attempt σ CollectError Outcome
  | 0 => return o
  | fuel + 1 => do
    let page ← b.loadPage job after
    match page.getLast? with
    | none => return o
    | some i =>
      let o ← Attempt.ofAct (b.visitAll job start last o page)
      if page.length < b.config.instrumentPageSize then return o
      else b.visitPages job start last (some i.id) o fuel

/-- More pages than a watchlist can have: ids are integers of 64 bits. -/
def pageLimit : Nat := UInt64.size + 1

/-- Runs a job over the days from `start` to `last`. -/
def run (b : Batch σ) (job : Job) (start last : Date) : Attempt σ CollectError Outcome := do
  let started ← Attempt.ofAct Act.uptime
  Attempt.ofAct (Act.emit .info .batch "Batch started"
    [("job", .text job.name), ("start", .text start.iso), ("end", .text last.iso)])
  let o ← b.visitPages job start last none {} pageLimit
  let ended ← Attempt.ofAct Act.uptime
  let o := { o with elapsed := ended - started }
  Attempt.ofAct (o.report job.name)
  return o

/-- Collects the prices of a day. -/
def collectOn (b : Batch σ) (day : Date) : Attempt σ CollectError Outcome :=
  b.run .collection day day

/-- Collects the history up to a day. -/
def backfillUntil (b : Batch σ) (day : Date) : Attempt σ CollectError Outcome :=
  b.run .backfill b.config.backfillStart day

/-- The date in Seoul. -/
def today : Act σ Date := do return Seoul.dateAt (← Act.now)

/-- Runs a job up to today. -/
def runToday (b : Batch σ) (job : Job) : Attempt σ CollectError Outcome := do
  let day ← Attempt.ofAct today
  match job with
  | .collection => b.collectOn day
  | .backfill => b.backfillUntil day

end Batch

end DailyBars
