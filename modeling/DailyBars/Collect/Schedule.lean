import DailyBars.Broker.Pacing
import DailyBars.Calendar.Seoul
import DailyBars.Session

/-!
# The daily schedule

A job is run every day when the clock of Seoul shows its time: the next time is announced, waited
for, and the job is run.
-/

namespace DailyBars.Schedule

variable {σ : Type}

/-- Announces the next run of a job, and gives the nanoseconds until then. -/
def announce (job : String) (time : TimeOfDay) : Act σ Nat := do
  let now ← Act.now
  let wait := Seoul.waitForNext now time
  Act.emit .info .schedule "Next run scheduled"
    [("job", .text job), ("next_run", .text (Seoul.display (Seoul.nextRunAfter now time))),
      ("wait_secs", .nat (wait / 1000000000))]
  return wait

/-- Waits; a wait ends on a whole millisecond of the uptime. -/
def sleep (nanos : Nat) : Act σ Unit := do
  if nanos = 0 then return
  let up ← Act.uptime
  Act.passUntil (nextMillisecond (up + nanos))

/-- Announces the next run of a job, and waits until then in a given way. -/
def untilNext (wait : Nat → Act σ Unit) (job : String) (time : TimeOfDay) : Act σ Unit := do
  let nanos ← announce job time
  wait nanos

/-- Runs a task every day, the given number of times, with a given way to wait. -/
def runDailyBy (wait : Nat → Act σ Unit) (job : String) (time : TimeOfDay) (task : Act σ Unit) :
    Nat → Act σ Unit
  | 0 => pure ()
  | n + 1 => do
    untilNext wait job time
    task
    runDailyBy wait job time task n

/-- Runs a task every day, the given number of times. -/
def runDaily (job : String) (time : TimeOfDay) (task : Act σ Unit) : Nat → Act σ Unit :=
  runDailyBy sleep job time task

/-! ### Jobs side by side -/

/-- A job that is run every day. -/
structure DailyJob (σ : Type) where
  name : String
  time : TimeOfDay
  task : Act σ Unit

/-- A job whose next run was announced, with the uptime at which it is due. -/
abbrev Pending (σ : Type) := DailyJob σ × Nat

/-- Announces the next run of a job. -/
def DailyJob.pending (j : DailyJob σ) : Act σ (Pending σ) := do
  let wait ← announce j.name j.time
  let up ← Act.uptime
  return (j, if wait = 0 then up else nextMillisecond (up + wait))

/-- Announces the next runs of some jobs. -/
def announceAll : List (DailyJob σ) → Act σ (List (Pending σ))
  | [] => return []
  | j :: js => do
    let p ← j.pending
    return p :: (← announceAll js)

/-- The job that is due first, and the others; of two that are due together, the one in front. -/
def takeFirst : Pending σ → List (Pending σ) → Pending σ × List (Pending σ)
  | p, [] => (p, [])
  | p, q :: qs =>
    if q.2 < p.2 then ((takeFirst q qs).1, p :: (takeFirst q qs).2)
    else ((takeFirst p qs).1, q :: (takeFirst p qs).2)

/-- Runs the jobs as they fall due, the given number of times in all. -/
def runPending : (runs : Nat) → List (Pending σ) → Act σ Unit
  | 0, _ => pure ()
  | _, [] => pure ()
  | n + 1, p :: ps => do
    let (first, others) := takeFirst p ps
    Act.passUntil first.2
    first.1.task
    runPending n (others ++ [← first.1.pending])

/-- Runs some jobs every day, each at its time, and the given number of times in all. -/
def runSideBySide (jobs : List (DailyJob σ)) (runs : Nat) : Act σ Unit := do
  runPending runs (← announceAll jobs)

end DailyBars.Schedule
