import DailyBars.Collect.Batch

/-!
# Jobs under a lock

However many collectors run by the same schedule, a job runs in one place at a time: it runs only
under a lock of its name, and is skipped when somebody else holds the lock or when the locks are out
of order.
-/

namespace DailyBars

/-- What became of a job. -/
inductive JobRun (α : Type) where
  | executed (a : α)
  | skipped
  /-- It broke off at its lock, before the job or after it. -/
  | brokenOff
  deriving DecidableEq, Repr

namespace RunLocks

variable {σ α : Type}

/-- Runs a job under the lock of a name. A lock that cannot be given back expires by itself. -/
def runLocked (locks : RunLocks σ) (name : String) (terms : LockTerms) (job : Act σ α) :
    Act σ (JobRun α) := do
  match ← (locks.tryAcquire name terms.atMost terms.atLeast).run with
  | .error (.store e) =>
    Act.emit .error .lock "Failed to acquire run lock, skipping"
      [("lock", .text name), ("error", .text e.message)]
    return .skipped
  | .error .beyondClock => return .brokenOff
  | .ok none =>
    Act.emit .info .lock "Job is running elsewhere, skipping" [("lock", .text name)]
    return .skipped
  | .ok (some lock) =>
    let a ← job
    match ← (locks.release lock).run with
    | .ok _ => return .executed a
    | .error (.store e) =>
      Act.emit .warn .lock "Failed to release run lock"
        [("lock", .text name), ("error", .text e.message)]
      return .executed a
    | .error .beyondClock => return .brokenOff

end RunLocks

/-- Runs a job up to today under its lock. A batch that ended early is an alert. -/
def Batch.runLocked {σ : Type} (b : Batch σ) (locks : RunLocks σ) (terms : LockTerms) (job : Job) :
    Act σ (JobRun (Except CollectError Outcome)) := do
  let r ← locks.runLocked job.name terms (b.runToday job).run
  match r with
  | .executed (.error e) =>
    Act.emit .error .lock "Batch aborted"
      [("job", .text job.name), ("alert", .bool true), ("error", .text e.message)]
  | _ => pure ()
  return r

end DailyBars
