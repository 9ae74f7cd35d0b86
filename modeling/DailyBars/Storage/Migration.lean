import DailyBars.Storage.Statement

/-!
# Migrations

The changes of the database's schema, each of which is run once and remembered. Before anything is
run, what the database remembers must fit: nothing left unfinished, and nothing that is not one of
the changes known here, as they stand here.
-/

namespace DailyBars

/-- A change of the schema. -/
structure Migration where
  version : Nat
  description : String
  deriving DecidableEq, Repr

/-- The changes, in the order of their versions. -/
def Migration.all : List Migration := [⟨20240101000000, "collector schema"⟩]

/-- A change that the database remembers. -/
structure AppliedMigration where
  version : Nat
  /-- Whether its text was the one that stands here. -/
  isSame : Bool
  deriving DecidableEq, Repr

/-- What the database remembers. -/
structure MigrationRecord where
  applied : List AppliedMigration
  /-- The version of a change that was left unfinished. -/
  unfinished : Option Nat
  deriving DecidableEq, Repr

namespace Migration

variable {σ : Type}

/-- Why the record does not fit the changes known here. -/
def problem? (r : MigrationRecord) : Option String :=
  match r.unfinished with
  | some v =>
    some ("migration " ++ Text.decimalText v ++ " is partially applied; fix and remove row from " ++
      "_sqlx_migrations table")
  | none =>
    match r.applied.find? fun a => !all.any (·.version == a.version) with
    | some a =>
      some ("migration " ++ Text.decimalText a.version ++
        " was previously applied but is missing in the resolved migrations")
    | none =>
      (r.applied.find? (!·.isSame)).map fun a =>
        "migration " ++ Text.decimalText a.version ++
          " was previously applied but has been modified"

/-- Runs one change in a transaction of its own. -/
def apply (link : DatabaseLink σ) (m : Migration) : Attempt σ DatabaseError Unit := do
  let _ ← link .begin
  Attempt.onFailure
    (do
      let _ ← link (.migration m.version m.description)
      let _ ← link .commit)
    (fun _ => do let _ ← (link .rollback).run)

/-- Runs the changes that are not in the record. -/
def applyAll (link : DatabaseLink σ) (r : MigrationRecord) :
    List Migration → Attempt σ DatabaseError Unit
  | [] => return ()
  | m :: ms => do
    if r.applied.any (·.version == m.version) then applyAll link r ms
    else
      m.apply link
      applyAll link r ms

/-- Brings the schema of a database up to date. -/
def run (record : Attempt σ DatabaseError MigrationRecord) (link : DatabaseLink σ) :
    Attempt σ DataError Unit := do
  Attempt.ofAct (Act.emit .info .database "Running database migrations..." [])
  let r ← record.orElseAs fun e => .migration e.message
  match problem? r with
  | some text => throw (.migration text)
  | none =>
    (applyAll link r all).orElseAs fun e => .migration e.message
    Attempt.ofAct (Act.emit .info .database "Migrations completed successfully" [])

end Migration

end DailyBars
