import DailyBars.Session

/-!
# Pacing of requests

Each request reserves a slot, one interval after the slot before it and never in the past, and waits
for it. Idle time is not saved up: after a pause the next slot is now. Times are nanoseconds on a
clock that only goes forward.
-/

namespace DailyBars

/-- A pacer: the interval between slots and the earliest time of the next slot, in nanoseconds. -/
structure Pacing where
  interval : Nat
  nextSlot : Nat
  deriving DecidableEq, Repr

namespace Pacing

/-- Nanoseconds in a second. -/
def second : Nat := 1000000000

/-- The interval for a number of requests a second; none counts as one. -/
def intervalFor (perSecond : Nat) : Nat := second / max perSecond 1

/-- A pacer created at a given time. -/
def start (perSecond now : Nat) : Pacing := ⟨intervalFor perSecond, now⟩

/-- The pace of a pacer that nobody configured. -/
def defaultPerSecond : Nat := 20

/-- The slot of a request made at a given time, and the pacer after it. -/
def reserve (p : Pacing) (now : Nat) : Nat × Pacing :=
  let slot := max p.nextSlot now
  (slot, { p with nextSlot := slot + p.interval })

/-- The slots of requests made one after the other at the given times. -/
def slots (p : Pacing) : List Nat → List Nat
  | [] => []
  | t :: ts => (p.reserve t).1 :: slots (p.reserve t).2 ts

end Pacing

/-- The end of a wait: timers have a resolution of a millisecond and never end early. -/
def nextMillisecond (t : Nat) : Nat := (t + 999999) / 1000000 * 1000000

/-! ### Waiting for a slot -/

/-- Waits for an uptime, if it is still to come. -/
def Act.sleepUntil {σ : Type} (time : Nat) : Act σ Unit := do
  let now ← Act.uptime
  if now < time then Act.passUntil (nextMillisecond time)

/-- Reserves the next slot of a pacer and waits for it. -/
def Pacing.acquire {σ : Type} (p : Part σ Pacing) : Act σ Unit := do
  let now ← Act.uptime
  let slot ← Act.onPart p (·.reserve now)
  Act.sleepUntil slot

end DailyBars
