import DailyBars.Rehearsal.Failures
import DailyBars.Rehearsal.Notation
import DailyBars.Storage.Ledger

/-!
# A store that fails as planned

A ledger behind the interfaces of the stores. Every call is recorded, and a plan says which calls
fail; a call that fails changes nothing.
-/

namespace DailyBars

/-- A call of a store. Transactions and page queries are numbered from zero. -/
inductive StoreCall where
  | findPage (number : Nat) (completed : Bool) (after : Option Int) (limit : Nat)
  | begin (number : Nat)
  | existingDates (key : InstrumentKey) (first last : Date)
  | saveAll (key : InstrumentKey) (bars : List Bar)
  | markCompleted (id : Int)
  | commit (number : Nat)
  deriving DecidableEq

/-- A ledger with a plan of failures. -/
structure RehearsalStore where
  ledger : Ledger
  /-- The failure of a call, given the number of calls before it. -/
  plan : Nat → StoreCall → Option StorageError
  /-- The calls so far, oldest first. -/
  calls : List StoreCall
  queries : Nat
  transactions : Nat
  /-- Whether a bar that is there already counts as saved. -/
  countsRepeats : Bool

namespace RehearsalStore

variable {σ α : Type}

/-- A store without failures. -/
def ofLedger (l : Ledger) : RehearsalStore := ⟨l, fun _ _ => none, [], 0, 0, false⟩

/-- Makes a call: it is recorded, and answered unless it fails by the plan. -/
def call (s : RehearsalStore) (c : StoreCall) (answer : Ledger → α × Ledger) :
    Except StorageError α × RehearsalStore :=
  let s' := { s with calls := s.calls ++ [c] }
  match s.plan s.calls.length c with
  | some e => (.error e, s')
  | none =>
    let r := answer s.ledger
    (.ok r.1, { s' with ledger := r.2 })

/-- Makes a call of the store in a part of the world. -/
def callIn (p : Part σ RehearsalStore) (c : RehearsalStore → StoreCall)
    (answer : RehearsalStore → Ledger → α × Ledger) : Attempt σ StorageError α :=
  ExceptT.mk (Act.onPart p fun s => s.call (c s) (answer s))

/-- Counts a page query. -/
def countQuery (s : RehearsalStore) : RehearsalStore := { s with queries := s.queries + 1 }

/-- Counts a transaction. -/
def countTransaction (s : RehearsalStore) : RehearsalStore :=
  { s with transactions := s.transactions + 1 }

/-- The watchlist. -/
def watchlist (p : Part σ RehearsalStore) : Watchlist σ where
  findPage completed after limit := do
    Attempt.ofAct (Act.onPart p fun s => ((), s.countQuery))
    callIn p (fun s => .findPage (s.queries - 1) completed after limit)
      fun _ l => (l.findPage completed after limit, l)

/-- The price store. -/
def prices (p : Part σ RehearsalStore) : PriceStore σ where
  begin := do
    Attempt.ofAct (Act.onPart p fun s => ((), s.countTransaction))
    callIn p (fun s => .begin (s.transactions - 1)) fun _ l => ((), l.begin)
  existingDates key first last :=
    callIn p (fun _ => .existingDates key first last) fun _ l => (l.existingDates key first last, l)
  saveAll key bars :=
    callIn p (fun _ => .saveAll key bars) fun s l =>
      let r := l.insert key bars
      (if s.countsRepeats then bars.length else r.1, r.2)
  markCompleted id := callIn p (fun _ => .markCompleted id) fun _ l => ((), l.mark id)
  commit := callIn p (fun s => .commit (s.transactions - 1)) fun _ l => ((), l.commit)
  rollback := Act.onPart p fun s => ((), { s with ledger := s.ledger.rollback })

/-- A store with an open transaction that holds bars of a key on some days. -/
def opened (key : InstrumentKey) (days : List Date) : RehearsalStore :=
  let rows := days.map fun d => ⟨key, Bar.closeOnly d .zero⟩
  { ofLedger (Ledger.begin ⟨[], rows, none⟩) with countsRepeats := true }

/-- A plan in which every question for the existing dates fails. -/
def refusesDates (e : StorageError) (_ : Nat) : StoreCall → Option StorageError
  | .existingDates .. => some e
  | _ => none

/-- Reads a plan: for each kind of call the failures by number, code or id. -/
def planOfJson (j : Json) (_ : Nat) (c : StoreCall) : Option StorageError :=
  let find (name : String) (hit : Json → Bool) : Option StorageError :=
    ((j.itemsAt name).find? fun e => hit (e.at! "match")).map .ofJson
  let number (n : Int) (m : Json) : Bool := m.int? == some n
  let code (k : InstrumentKey) (m : Json) : Bool := m.text? == some k.stockCode
  match c with
  | .findPage n .. => find "find_page" (number n)
  | .begin n => find "begin" (number n)
  | .commit n => find "commit" (number n)
  | .existingDates k .. => find "existing_dates" (code k)
  | .saveAll k _ => find "save_all" (code k)
  | .markCompleted id => find "mark" (number id)

end RehearsalStore

namespace StoreCall

/-- Writes a call of the price store. -/
def eventToJson? : StoreCall → Option Json
  | .findPage .. => none
  | .begin n => some (.list [.str "begin", .nat n])
  | .commit n => some (.list [.str "commit", .nat n])
  | .existingDates k a b =>
    some (.list [.str "existing_dates", .str k.text, .str a.iso, .str b.iso])
  | .markCompleted id => some (.list [.str "mark_backfill_completed", .int id])
  | .saveAll k bs =>
    let day (b : Option Bar) : Json := .str? (b.map (·.tradeDate.iso))
    some (.list [.str "save_all", .str k.text, .nat bs.length, day bs.head?, day bs.getLast?])

/-- Writes a query of the watchlist. -/
def queryToJson? : StoreCall → Option Json
  | .findPage _ flag after limit => some (.list [.bool flag, Json.orNull .int after, .nat limit])
  | _ => none

/-- Writes a call that stores a page, with its bars. -/
def pageToJson? : StoreCall → Option Json
  | .existingDates k a b =>
    some (.obj [("existing_dates", .list [.str k.text, .str a.iso, .str b.iso])])
  | .saveAll k bs => some (.obj [("save_all", .list [.str k.text, Bar.listToJson bs])])
  | _ => none

end StoreCall

/-- Writes the days of the rows of each key, as runs of consecutive days. -/
def StoredBar.runsToJson (rows : List StoredBar) : Json :=
  .obj ((rows.map (·.key)).eraseDups.map fun k =>
    let days := Date.sorted ((rows.filter (·.key == k)).map (·.bar.tradeDate))
    (k.text, .list ((Date.runs days).map fun (a, b, n) =>
      .list [.str a.iso, .str b.iso, .nat n])))

end DailyBars
