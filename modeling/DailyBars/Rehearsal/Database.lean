import DailyBars.Rehearsal.Notation
import DailyBars.Storage.Database
import DailyBars.Storage.Migration

/-!
# A database with a script

A database server in the process, reached by a pool of one connection, that records the statements
it gets and answers by a script: in the order of the statements, or by kind of statement. Without an
answer in the script every row of an insertion is written, one row of any other change, and nothing
is found.
-/

namespace DailyBars

/-- What the server does with a statement. -/
inductive DatabaseAnswer where
  | result (r : StatementResult)
  | refuse (code message : String)
  /-- It closes the connection. -/
  | close
  deriving DecidableEq

/-- The name of a statement. -/
def Statement.name : Statement → String
  | begin => "BEGIN"
  | commit => "COMMIT"
  | rollback => "ROLLBACK"
  | existingDates .. => "existing_dates"
  | insert _ => "insert"
  | mark _ => "mark"
  | findPage .. => "find_page"
  | migration .. => "migration"

/-- The part of a connection's life. -/
inductive ConnectionState where
  | free
  | inTransaction
  /-- Closed by the server within a transaction. -/
  | broken
  deriving DecidableEq, Repr

/-- A server and what was asked of it. -/
structure RehearsalDatabase where
  /-- The answers to come, by the name of the statement; those under the empty name are given to
  whatever statement comes next. -/
  answers : List (String × List DatabaseAnswer)
  /-- What is answered, whenever it comes, to a statement that begins or ends a transaction or
  changes the schema. -/
  refusals : List (String × DatabaseError)
  migrations : MigrationRecord
  connection : ConnectionState
  /-- The statements so far, oldest first. -/
  statements : List Statement

namespace RehearsalDatabase

variable {σ : Type}

/-- A server with answers by the name of the statement. -/
def ofAnswers (answers : List (String × List DatabaseAnswer)) : RehearsalDatabase :=
  ⟨answers, [], ⟨[], none⟩, .free, []⟩

/-- What the server does when the script has nothing to say. -/
def unscripted : Statement → DatabaseAnswer
  | .insert c => .result (.written c.tradeDates.length)
  | .existingDates .. => .result (.dates [])
  | .findPage .. => .result (.records [])
  | _ => .result (.written 1)

/-- The answer of the script to a statement, and what is left of the script. -/
def scripted (s : RehearsalDatabase) (q : Statement) : DatabaseAnswer × RehearsalDatabase :=
  match s.answers.find? fun p => (p.1 == q.name || p.1 == "") && !p.2.isEmpty with
  | some (name, a :: left) =>
    (a, { s with answers := (name, left) :: s.answers.filter (·.1 != name) })
  | _ => (unscripted q, s)

/-- What is said when the server goes away. -/
def goneAway : DatabaseError := .io "expected to read 5 bytes, got 0 bytes at EOF"

/-- Sends a statement that begins or ends a transaction; the connection is in the given state
afterwards if it succeeds. -/
def control (s : RehearsalDatabase) (q : Statement) (after : ConnectionState) :
    Except DatabaseError StatementResult × RehearsalDatabase :=
  let s := { s with statements := s.statements ++ [q] }
  match s.refusals.lookup q.name with
  | some e => (.error e, s)
  | none => (.ok (.written 0), { s with connection := after })

/-- Sends a statement over the connection as it is. -/
def query (s : RehearsalDatabase) (q : Statement) :
    Except DatabaseError StatementResult × RehearsalDatabase :=
  let (a, s) := s.scripted q
  let s := { s with statements := s.statements ++ [q] }
  match a with
  | .result r => (.ok r, s)
  | .refuse code text => (.error (.refused code text), s)
  | .close =>
    (.error goneAway, { s with
      connection := if s.connection = .inTransaction then .broken else .free })

/-- Answers a statement. A page of the watchlist is asked for outside of transactions, so it has to
wait for the connection while one is open. -/
def answer (s : RehearsalDatabase) (q : Statement) :
    Except DatabaseError StatementResult × RehearsalDatabase :=
  match q, s.connection with
  | .begin, _ => s.control .begin .inTransaction
  | .commit, .inTransaction => s.control .commit .free
  | .rollback, .inTransaction => s.control .rollback .free
  | .rollback, _ => (.ok (.written 0), { s with connection := .free })
  | .findPage .., .inTransaction => (.error .poolTimedOut, s)
  | .findPage .., _ => s.query q
  | .migration .., _ =>
    match s.refusals.lookup "MIGRATION" with
    | some e => (.error e, s)
    | none => (.ok (.written 0), { s with statements := s.statements ++ [q] })
  | _, .broken => (.error goneAway, s)
  | _, _ => s.query q

/-- The connection to a server in a part of the world. -/
def link (p : Part σ RehearsalDatabase) : DatabaseLink σ := fun q =>
  ExceptT.mk (Act.onPart p (·.answer q))

/-- What the server remembers of migrations. -/
def record (p : Part σ RehearsalDatabase) : Attempt σ DatabaseError MigrationRecord :=
  ExceptT.mk (Act.onPart p fun s => (.ok s.migrations, s))

end RehearsalDatabase

/-! ### Notation -/

/-- Reads a row of the watchlist. -/
def WatchlistRecord.ofJson (j : Json) : WatchlistRecord :=
  match j.items with
  | [id, code, name, exchange, assetType, completed] =>
    ⟨(id.int?).getD 0, code.text?.getD "", name.text?, exchange.int?, assetType.int?,
      completed matches .bool true⟩
  | _ => ⟨0, "", none, none, none, false⟩

/-- Reads an answer to a statement of a kind. -/
def DatabaseAnswer.ofJson (kind : String) (j : Json) : DatabaseAnswer :=
  if j.isTrueAt "close" then .close
  else
    match j.at? "error", j.natAt? "affected" with
    | some e, _ => .refuse (e.textAt "code") (e.textAt "message")
    | none, some n => .result (.written n)
    | none, none =>
      if kind = "find_page" then .result (.records ((j.itemsAt "rows").map .ofJson))
      else .result (.dates ((j.itemsAt "rows").map fun r => Date.ofJson (r.items.headD .null)))

/-- Reads the statements that are always refused. -/
def RehearsalDatabase.refusalsOfJson (j : Json) : List (String × DatabaseError) :=
  j.entries.map fun (name, e) => (name, .refused (e.textAt "code") (e.textAt "message"))

/-- Reads what a database remembers of migrations. -/
def MigrationRecord.ofJson (j : Json) : MigrationRecord where
  applied := (j.itemsAt "applied").filterMap fun a =>
    match a.items with
    | [version, state] => some ⟨(version.int?).getD 0 |>.toNat, state.text? == some "same"⟩
    | _ => none
  unfinished := j.natAt? "dirty"

/-- Writes a list of values, a long one by its ends and its length. -/
def shortList (values : List Json) : Json :=
  if values.length ≤ 5 then .list values
  else
    .obj [("first", values.headD .null), ("last", values.getLastD .null),
      ("count", .nat values.length)]

/-- Writes a number as the database gets it, which knows one zero only. -/
def Decimal.toNumericJson (d : Decimal) : Json :=
  .str (if d.mantissa = 0 then "0" else d.text)

/-- Writes the columns of an insertion. -/
def BarColumns.toJson (c : BarColumns) : Json :=
  let numbers (ds : List Decimal) : Json := shortList (ds.map (·.toNumericJson))
  .list [shortList (c.assetTypes.map .int), shortList (c.stockCodes.map .str),
    shortList (c.exchangeCodes.map .str), shortList (c.tradeDates.map (.str ·.iso)),
    numbers c.opens, numbers c.highs, numbers c.lows, numbers c.closes, numbers c.volumes,
    numbers c.tradingValues]

/-- Writes a statement. -/
def Statement.toJson (q : Statement) : Json :=
  let withParams (ps : Json) : Json := .obj [("statement", .str q.name), ("params", ps)]
  match q with
  | begin | commit | rollback => .obj [("statement", .str q.name)]
  | existingDates t code exchange first last =>
    withParams (.list [.int t, .str code, .str exchange, .str first.iso, .str last.iso])
  | insert c => withParams c.toJson
  | mark id => withParams (.list [.int id])
  | findPage completed after limit =>
    withParams (.list [.bool completed, Json.orNull .int after, .int limit])
  | migration version description =>
    withParams (.list [.nat version, .str description, .str "<bytes>"])

end DailyBars
