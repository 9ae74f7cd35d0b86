import DailyBars.Storage.Interface

/-!
# Ledgers

A price store and a watchlist kept in memory. What a transaction adds is kept apart as a draft until
it is committed, when all of it becomes part of the ledger at once. There is at most one bar for a
key and a day: a bar that is there already stays as it is.
-/

namespace DailyBars

/-- A bar under its key. -/
structure StoredBar where
  key : InstrumentKey
  bar : Bar
  deriving DecidableEq

/-- What an open transaction has added. -/
structure Draft where
  rows : List StoredBar
  /-- The ids of the instruments that were marked as complete. -/
  completed : List Int
  deriving DecidableEq

/-- A ledger. -/
structure Ledger where
  instruments : List Instrument
  rows : List StoredBar
  /-- The transaction that is open, if one is. -/
  draft : Option Draft
  deriving DecidableEq

namespace Ledger

/-- A ledger with a watchlist and no bars. -/
def ofInstruments (instruments : List Instrument) : Ledger := ⟨instruments, [], none⟩

/-- The rows that the open transaction sees. -/
def visible (l : Ledger) : List StoredBar := l.rows ++ (l.draft.map (·.rows)).getD []

/-- Whether the open transaction sees a bar for a key and a day. -/
def holds (l : Ledger) (key : InstrumentKey) (day : Date) : Bool :=
  l.visible.any fun r => r.bar.tradeDate == day && r.key == key

/-- The days from the first to the last date for which the open transaction sees a bar. -/
def existingDates (l : Ledger) (key : InstrumentKey) (first last : Date) : List Date :=
  (l.visible.filter fun r =>
    decide (first ≤ r.bar.tradeDate) && decide (r.bar.tradeDate ≤ last) && r.key == key).map
    (·.bar.tradeDate)

/-- Opens a transaction. -/
def begin (l : Ledger) : Ledger := { l with draft := some ⟨[], []⟩ }

/-- Adds rows to the open transaction. -/
def addRow (l : Ledger) (r : StoredBar) : Ledger :=
  { l with draft := l.draft.map fun d => { d with rows := d.rows ++ [r] } }

/-- Inserts bars in the open transaction, and gives the number of those that were not there. -/
def insert (l : Ledger) (key : InstrumentKey) : List Bar → Nat × Ledger
  | [] => (0, l)
  | b :: bs =>
    if l.holds key b.tradeDate then l.insert key bs
    else
      let r := (l.addRow ⟨key, b⟩).insert key bs
      (r.1 + 1, r.2)

/-- Marks an instrument as complete in the open transaction. -/
def mark (l : Ledger) (id : Int) : Ledger :=
  { l with draft := l.draft.map fun d => { d with completed := d.completed ++ [id] } }

/-- Keeps what the open transaction has added. -/
def commit (l : Ledger) : Ledger :=
  match l.draft with
  | none => l
  | some d =>
    { instruments := l.instruments.map fun i =>
        if d.completed.contains i.id then { i with backfillCompleted := true } else i
      rows := l.rows ++ d.rows
      draft := none }

/-- Drops what the open transaction has added. -/
def rollback (l : Ledger) : Ledger := { l with draft := none }

/-- The first `limit` instruments, by id, with the given completion flag and an id after the given
one. -/
def findPage (l : Ledger) (completed : Bool) (after : Option Int) (limit : Nat) : List Instrument :=
  ((l.instruments.filter fun i =>
      i.backfillCompleted == completed && after.all (· < i.id)).mergeSort
    fun i j => i.id ≤ j.id).take limit

end Ledger

end DailyBars
