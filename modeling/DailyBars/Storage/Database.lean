import DailyBars.Storage.Interface
import DailyBars.Storage.Statement

/-!
# The stores in a database

The watchlist and the price store over a connection to a database. Bars are inserted in blocks, one
statement for each; a block that fails is the last one sent.
-/

namespace DailyBars

/-- A list in blocks of `size` members; the last block may be shorter. -/
def blocksOf {α : Type} (size : Nat) (h : 0 < size) (xs : List α) : List (List α) :=
  match xs with
  | [] => []
  | x :: rest => (x :: rest).take size :: blocksOf size h ((x :: rest).drop size)
termination_by xs.length
decreasing_by simp only [List.length_drop, List.length_cons]; omega

/-- The greatest number of rows of an insertion. -/
def insertBlockSize : Nat := 500

/-- The number as the database counts in it: an integer of 64 bits. -/
def asInt64 (n : Nat) : Int := (n : Int).bmod UInt64.size

namespace DatabaseLink

variable {σ : Type}

/-- Sends a statement, its failure told in the words of the store. -/
def send (link : DatabaseLink σ) (tell : DatabaseError → DataError) (s : Statement) :
    Attempt σ StorageError StatementResult :=
  (link s).orElseAs fun e => (tell e).toStorage

/-- A failure to begin or to commit. -/
def ofTransaction (e : DatabaseError) : DataError := .transaction e.message

/-- A failure to insert. -/
def ofInsert (e : DatabaseError) : DataError := .insert e.message

/-- Inserts blocks of bars, and gives the number of rows that were inserted. -/
def insertBlocks (link : DatabaseLink σ) (key : InstrumentKey) :
    List (List Bar) → Attempt σ StorageError Nat
  | [] => return 0
  | block :: rest => do
    let r ← send link ofInsert (.insert (.ofBars key block))
    return r.rowsWritten + (← insertBlocks link key rest)

/-- Inserts bars, and gives the number of rows that were inserted. -/
def insertAll (link : DatabaseLink σ) (key : InstrumentKey) (bars : List Bar) :
    Attempt σ StorageError Nat := do
  if bars.isEmpty then return 0
  let inserted ← insertBlocks link key (blocksOf insertBlockSize (by decide) bars)
  Attempt.ofAct (Act.emit .debug .priceStore "Daily prices saved" [("inserted", .nat inserted)])
  return inserted

/-- Marks an instrument, which must be there. -/
def mark (link : DatabaseLink σ) (id : Int) : Attempt σ StorageError Unit := do
  let r ← send link .ofDatabase (.mark id)
  if r.rowsWritten = 0 then
    throw (DataError.notFound ("watchlist_instrument id=" ++ Text.integerText id)).toStorage

/-- The price store. -/
def prices (link : DatabaseLink σ) : PriceStore σ where
  begin := do let _ ← send link ofTransaction .begin
  existingDates key first last := do
    let r ← send link .ofDatabase
      (.existingDates key.assetType.code key.stockCode key.storedExchange first last)
    return r.days
  saveAll key bars := insertAll link key bars
  markCompleted id := mark link id
  commit := do let _ ← send link ofTransaction .commit
  rollback := do let _ ← (link .rollback).run

/-- The watchlist. -/
def watchlist (link : DatabaseLink σ) : Watchlist σ where
  findPage completed after limit := do
    let r ← send link .ofDatabase (.findPage completed after (asInt64 limit))
    Attempt.ofAct (WatchlistRecord.toInstruments r.rows)

end DatabaseLink

end DailyBars
