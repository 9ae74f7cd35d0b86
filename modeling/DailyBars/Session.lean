import DailyBars.Calendar.Instant
import DailyBars.Log.Event

/-!
# Sessions

What the collector works in: the world outside, of whatever type, a clock, and the log. An action
reads and changes a session; an attempt is an action that may fail, and what it changed before it
failed stays changed.
-/

namespace DailyBars

/-- Two clocks that go at the same pace: the wall clock, and the nanoseconds since some start, which
nobody can set back. -/
structure Clock where
  wall : Instant
  uptime : Nat
  deriving DecidableEq, Repr

/-- The last uptime that a clock can show: it counts seconds in 63 bits. -/
def Clock.lastUptime : Nat := Nat.pow 2 63 * 1000000000 - 1

/-- The clock a number of nanoseconds later. -/
def Clock.advance (c : Clock) (nanos : Nat) : Clock :=
  if nanos = 0 then c else ⟨c.wall.plusNanos nanos, c.uptime + nanos⟩

/-- A session over a world of type `σ`. The log is in order, oldest event first. -/
structure Session (σ : Type) where
  world : σ
  clock : Clock
  log : List LogEvent

/-- What reads and changes a session. -/
abbrev Act (σ : Type) := StateM (Session σ)

/-- An action that may fail with an `ε`. -/
abbrev Attempt (σ ε : Type) := ExceptT ε (Act σ)

/-- A part `τ` of a world `σ`. -/
structure Part (σ τ : Type) where
  get : σ → τ
  set : τ → σ → σ

namespace Act

variable {σ τ ε ε' α : Type}

/-- The wall clock. -/
def now : Act σ Instant := fun s => (s.clock.wall, s)

/-- The nanoseconds since the start. -/
def uptime : Act σ Nat := fun s => (s.clock.uptime, s)

/-- Lets time pass. -/
def pass (nanos : Nat) : Act σ Unit := fun s => ((), { s with clock := s.clock.advance nanos })

/-- Lets time pass until a given uptime, if it is still to come. -/
def passUntil (time : Nat) : Act σ Unit := fun s =>
  ((), { s with clock := s.clock.advance (time - s.clock.uptime) })

/-- Writes an event to the log. -/
def emit (level : LogLevel) (source : LogSource) (message : String)
    (fields : List (String × LogValue)) : Act σ Unit := fun s =>
  ((), { s with log := s.log ++ [⟨level, source, message, fields⟩] })

/-- Reads and changes a part of the world. -/
def onPart (p : Part σ τ) (f : τ → α × τ) : Act σ α := fun s =>
  let r := f (p.get s.world)
  (r.1, { s with world := p.set r.2 s.world })

/-- Reads and changes the world. -/
def onWorld (f : σ → α × σ) : Act σ α := fun s =>
  let r := f s.world
  (r.1, { s with world := r.2 })

end Act

namespace Attempt

variable {σ ε ε' α : Type}

/-- The same attempt, its failures told in other words. -/
def orElseAs (x : Attempt σ ε α) (f : ε → ε') : Attempt σ ε' α :=
  ExceptT.mk do return (← x.run).mapError f

/-- An action that cannot fail. -/
def ofAct (x : Act σ α) : Attempt σ ε α := ExceptT.lift x

/-- A result that is there already. -/
def ofResult (r : Except ε α) : Attempt σ ε α := ExceptT.mk (pure r)

/-- Does something more if the attempt fails, and still fails. -/
def onFailure (x : Attempt σ ε α) (cleanUp : ε → Act σ Unit) : Attempt σ ε α :=
  ExceptT.mk do
    let r ← x.run
    match r with
    | .ok a => return .ok a
    | .error e =>
      cleanUp e
      return .error e

end Attempt

end DailyBars
