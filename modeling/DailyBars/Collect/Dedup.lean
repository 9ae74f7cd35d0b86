import DailyBars.Collect.Walk
import DailyBars.Storage.Interface

/-!
# Storing only what is new

Before a page is stored, the days of it that are stored already are asked for and left out. If
nothing is left, nothing is stored.
-/

namespace DailyBars

/-- The bars of a page on other days than the given ones. -/
def freshBars (existing : List Date) (page : List Bar) : List Bar :=
  page.filter fun b => !existing.contains b.tradeDate

/-- Stores the bars of a page that were left over, and says what became of the page. -/
def PriceStore.saveFresh {σ : Type} (store : PriceStore σ) (key : InstrumentKey) (fetched : Nat)
    (fresh : List Bar) : Attempt σ CollectError Nat := do
  if fresh.isEmpty then
    Attempt.ofAct (Act.emit .debug .dedup "All rows already stored"
      [("key", .text key.text), ("rows", .nat fetched)])
    return 0
  let saved ← (store.saveAll key fresh).orElseAs .storage
  Attempt.ofAct (Act.emit .debug .dedup "Page persisted"
    [("key", .text key.text), ("fetched", .nat fetched),
      ("skipped", .nat (fetched - fresh.length)), ("saved", .nat saved)])
  return saved

/-- Stores the new bars of a page under a key. -/
def PriceStore.saveNew {σ : Type} (store : PriceStore σ) (key : InstrumentKey) : PageSink σ Bar :=
  fun page => do
    let days := page.map (·.tradeDate)
    match Date.min? days, Date.max? days with
    | some oldest, some newest =>
      let existing ← (store.existingDates key oldest newest).orElseAs .storage
      store.saveFresh key page.length (freshBars existing page)
    | _, _ => return 0

end DailyBars
