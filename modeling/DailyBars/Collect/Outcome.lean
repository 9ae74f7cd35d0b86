import DailyBars.Binary64
import DailyBars.Collect.Error
import DailyBars.Json.Value
import DailyBars.Session

/-!
# Outcomes

What a batch did, counted by instrument. An instrument that was skipped is not in the total.
-/

namespace DailyBars

/-- The outcome of a batch. -/
structure Outcome where
  total : Nat := 0
  success : Nat := 0
  recoverable : Nat := 0
  critical : Nat := 0
  unexpected : Nat := 0
  skipped : Nat := 0
  savedRows : Nat := 0
  /-- The time that the batch took, in nanoseconds. -/
  elapsed : Nat := 0
  deriving DecidableEq, Repr

namespace Outcome

/-- Counts an instrument that was collected. -/
def addSuccess (o : Outcome) (saved : Nat) : Outcome :=
  { o with total := o.total + 1, success := o.success + 1, savedRows := o.savedRows + saved }

/-- Counts an instrument that failed. -/
def addFailure (o : Outcome) (kind : FailureKind) : Outcome :=
  let o := { o with total := o.total + 1 }
  match kind with
  | .recoverable => { o with recoverable := o.recoverable + 1 }
  | .critical => { o with critical := o.critical + 1 }
  | .unexpected => { o with unexpected := o.unexpected + 1 }

/-- Counts an instrument that was skipped. -/
def addSkipped (o : Outcome) : Outcome := { o with skipped := o.skipped + 1 }

/-- Whether the parts make up the total. -/
def isConsistent (o : Outcome) : Bool :=
  o.total == o.success + o.recoverable + o.critical + o.unexpected

/-- The share of successes in percent, as a double: the quotient is rounded before it is
multiplied. -/
def successRate (o : Outcome) : Binary64 :=
  if o.total = 0 then .zero
  else
    let quotient := do (← Binary64.ofNat o.success).div (← Binary64.ofNat o.total)
    ((quotient.bind fun q => (Binary64.ofNat 100).bind q.mul)).getD .zero

/-- The time that the batch took, in seconds: whole seconds and the fraction are rounded apart. -/
def elapsedSeconds (o : Outcome) : Binary64 :=
  let sum := do
    let whole ← Binary64.ofNat (o.elapsed / 1000000000)
    let rest ← (← Binary64.ofNat (o.elapsed % 1000000000)).div (← Binary64.ofNat 1000000000)
    whole.addMagnitudes rest
  sum.getD .zero

/-- The outcome in one line. -/
def summary (o : Outcome) (job : String) : String :=
  let n := Text.decimalText
  job ++ " finished - Total: " ++ n o.total ++ ", Success: " ++ n o.success ++ " (" ++
    o.successRate.fixed 2 ++ "%), Recoverable: " ++ n o.recoverable ++ ", Critical: " ++
    n o.critical ++ ", Unexpected: " ++ n o.unexpected

/-- Logs the outcome, and an alert if a store failed. -/
def report {σ : Type} (o : Outcome) (job : String) : Act σ Unit := do
  Act.emit .info .outcome (o.summary job)
    [("job", .text job), ("total", .nat o.total), ("success", .nat o.success),
      ("recoverable", .nat o.recoverable), ("critical", .nat o.critical),
      ("unexpected", .nat o.unexpected), ("skipped", .nat o.skipped),
      ("saved_rows", .nat o.savedRows), ("elapsed", .text (o.elapsedSeconds.fixed 1 ++ "s"))]
  if 0 < o.critical then
    Act.emit .error .outcome
      ("ALERT: " ++ Text.decimalText o.critical ++ " critical database failures detected!")
      [("job", .text job), ("alert", .bool true), ("critical", .nat o.critical)]

/-- The outcome as JSON, without the time. -/
def toJson (o : Outcome) : Json :=
  .obj [("total", .nat o.total), ("success", .nat o.success),
    ("recoverable_failure", .nat o.recoverable), ("critical_failure", .nat o.critical),
    ("unexpected_failure", .nat o.unexpected), ("skipped", .nat o.skipped),
    ("saved_rows", .nat o.savedRows)]

end Outcome

end DailyBars
