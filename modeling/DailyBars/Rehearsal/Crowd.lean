import DailyBars.Broker.TokenCache

/-!
# Calls that share a thread

Calls for tokens that are made together. One of them runs at a time, until it has asked the store or
the issuer, waits for a lock, or is at its end. Calls that gave way run again when nobody else can,
the last of them first; a call that got a lock gets in line behind those that can run.
-/

namespace DailyBars

/-- A call and where it is. -/
structure CrowdMember where
  call : TokenCall
  stage : TokenStage

/-- Calls that share a thread, by the numbers of their callers. -/
structure Crowd where
  members : List CrowdMember
  /-- Those that can run, the next one first. -/
  ready : List Nat
  /-- Those that gave way, the last one first. -/
  resting : List Nat

/-- Whether a call gives way at a stage: it has just asked somebody. -/
def TokenStage.givesWay : TokenStage → Bool
  | .judging .. | .weighing .. => true
  | _ => false

/-- The result of a call that is at its end. -/
def TokenStage.result? : TokenStage → Option (Except BrokerError String)
  | .done r => some r
  | _ => none

namespace Crowd

variable {σ : Type}

/-- A crowd of calls that have not started. -/
def ofCalls (calls : List TokenCall) : Crowd :=
  ⟨calls.map (⟨·, .reading false⟩), calls.map (·.caller), []⟩

/-- Runs a call until it gives way, waits or ends. Whoever gets in line for a lock is noted. -/
def run (t : TokenCache σ) (note : TokenCall → Act σ Unit) (c : TokenCall) :
    Nat → TokenStage → Act σ TokenStage
  | 0, stage => return stage
  | n + 1, stage => do
    if stage matches .joining then note c
    let next ← t.step c stage
    match stage, next with
    | .waiting, .waiting => return next
    | _, .done _ => return next
    | _, _ => if next.givesWay then return next else run t note c n next

/-- The holder of the lock that a call needs. -/
def holder? (t : TokenCache σ) (c : TokenCall) : Act σ (Option Nat) :=
  Act.onPart t.desk fun d => (d.locks.holder? c.hash, d)

/-- Lets the calls run, for a number of turns at most. -/
def turns (t : TokenCache σ) (note : TokenCall → Act σ Unit) : Nat → Crowd → Act σ Crowd
  | 0, c => return c
  | n + 1, c => do
    match c.ready with
    | [] => if c.resting.isEmpty then return c else turns t note n ⟨c.members, c.resting, []⟩
    | i :: ready =>
      match c.members.find? (·.call.caller = i) with
      | none => turns t note n { c with ready }
      | some m =>
        let before ← holder? t m.call
        let stage ← run t note m.call TokenCache.stepLimit m.stage
        let after ← holder? t m.call
        let woken := if before = some i ∧ after ≠ some i then after.toList else []
        turns t note n ⟨c.members.map fun o => if o.call.caller = i then ⟨o.call, stage⟩ else o,
          ready ++ woken, if stage.givesWay then i :: c.resting else c.resting⟩

/-- Makes calls together, and gives their results by the numbers of their callers. -/
def answer (t : TokenCache σ) (note : TokenCall → Act σ Unit) (calls : List TokenCall) :
    Act σ (List (Nat × Except BrokerError String)) := do
  let c ← turns t note (2 * TokenCache.stepLimit * calls.length + 1) (ofCalls calls)
  return c.members.filterMap fun m => m.stage.result?.map (m.call.caller, ·)

end Crowd

end DailyBars
