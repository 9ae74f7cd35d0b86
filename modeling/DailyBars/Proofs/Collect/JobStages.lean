import DailyBars.Proofs.Collect.LockHistory
import DailyBars.Proofs.Storage.LocalTable

/-!
# A locked run, step by step

A run under a lock asks for the lock, does its job, and gives the lock back. The three steps one after
the other are the program (`exec_act_thrice`), so that it can be followed while other runs come in
between. With the locks of one process each step of a run is one change of the table at most.
-/

namespace DailyBars

variable {σ α : Type}

/-- Where a run under a lock is. -/
inductive JobStage (α : Type) where
  | starting
  /-- It has the lock, and its job is running. -/
  | working (lock : RunLock)
  /-- Its job has ended. -/
  | worked (a : α) (lock : RunLock)
  | finished (r : JobRun α)

namespace JobStage

/-- The lock that a run has and has not given back. -/
def lock? : JobStage α → Option RunLock
  | working lock | worked _ lock => some lock
  | starting | finished _ => none

/-- What has happened to a run that goes from one stage to another. -/
def happening? : JobStage α → JobStage α → Option LockHappening
  | starting, working _ => some .acquired
  | starting, finished .brokenOff => some .brokeAsking
  | starting, finished _ => some .skipped
  | working _, worked .. => some .ended
  | worked .., finished .brokenOff => some .brokeReleasing
  | worked .., finished _ => some .released
  | _, _ => none

/-- The stage after the answer to asking for the lock. -/
def asked : Except LockError (Option RunLock) → JobStage α
  | .ok (some lock) => working lock
  | .ok none | .error (.store _) => finished .skipped
  | .error .beyondClock => finished .brokenOff

/-- The stage after the answer to giving the lock back. -/
def returned (a : α) : Except LockError Unit → JobStage α
  | .ok _ | .error (.store _) => finished (.executed a)
  | .error .beyondClock => finished .brokenOff

section Program

variable (locks : RunLocks σ) (name : String) (terms : LockTerms) (job : Act σ α)

/-- Does what comes next. -/
def act : JobStage α → Act σ (JobStage α)
  | starting => do
    match ← (locks.tryAcquire name terms.atMost terms.atLeast).run with
    | .error (.store e) =>
      Act.emit .error .lock "Failed to acquire run lock, skipping"
        [("lock", .text name), ("error", .text e.message)]
      return finished .skipped
    | .error .beyondClock => return finished .brokenOff
    | .ok none =>
      Act.emit .info .lock "Job is running elsewhere, skipping" [("lock", .text name)]
      return finished .skipped
    | .ok (some lock) => return working lock
  | working lock => return worked (← job) lock
  | worked a lock => do
    match ← (locks.release lock).run with
    | .ok _ => return finished (.executed a)
    | .error (.store e) =>
      Act.emit .warn .lock "Failed to release run lock"
        [("lock", .text name), ("error", .text e.message)]
      return finished (.executed a)
    | .error .beyondClock => return finished .brokenOff
  | finished r => return finished r

/-- **The stages are the program.** -/
theorem exec_act_thrice (s : Session σ) :
    Act.exec (act locks name terms job starting >>= act locks name terms job >>=
        act locks name terms job) s =
      (finished (Act.exec (locks.runLocked name terms job) s).1,
        (Act.exec (locks.runLocked name terms job) s).2) := by
  unfold RunLocks.runLocked
  simp only [Act.exec_bind, act]
  rcases Act.exec (locks.tryAcquire name terms.atMost terms.atLeast).run s with ⟨r, s₁⟩
  rcases r with (e | -) | _ | lock
  · rfl
  · rfl
  · rfl
  · simp only [Act.exec_pure, Act.exec_bind]
    rcases Act.exec (locks.release lock).run (Act.exec job s₁).2 with ⟨r', s₂⟩
    rcases r' with (e | -) | _ <;> rfl

end Program

/-! ### What a step does to the table -/

section Table

variable {p : Part σ LocalLocks} (name : String) (terms : LockTerms) (job : Act σ α)
  (s : Session σ)

/-- A run that asks for its lock goes where the answer of the table sends it. -/
theorem exec_act_starting (hp : p.Lawful) :
    let r := (p.get s.world).tryAcquire s.clock.uptime name terms.atMost terms.atLeast
    ∃ s', Act.exec (act (LocalLocks.provider p) name terms job starting) s = (asked r.1, s') ∧
      s'.clock = s.clock ∧ p.get s'.world = r.2 := by
  intro r
  have hrun := LocalLocks.exec_tryAcquire p s name terms.atMost terms.atLeast
  simp only [act, Act.exec_bind, Act.exec_run, hrun]
  rcases hr : (p.get s.world).tryAcquire s.clock.uptime name terms.atMost terms.atLeast with
    ⟨(e | -) | _ | lock, after⟩ <;>
  · simp only [r, hr]
    exact ⟨_, rfl, rfl, hp _ _⟩

/-- A run that gives its lock back is finished. -/
theorem exec_act_worked (hp : p.Lawful) (a : α) (lock : RunLock) :
    let r := (p.get s.world).release s.clock.uptime lock
    ∃ s', Act.exec (act (LocalLocks.provider p) name terms job (worked a lock)) s =
        (returned a r.1, s') ∧ s'.clock = s.clock ∧ p.get s'.world = r.2 := by
  intro r
  obtain ⟨log, hrun⟩ := LocalLocks.exec_release p s lock
  simp only [act, Act.exec_bind, Act.exec_run, hrun]
  rcases hr : (p.get s.world).release s.clock.uptime lock with ⟨(e | -) | _, after⟩ <;>
  · simp only [r, hr]
    exact ⟨_, rfl, rfl, hp _ _⟩

end Table

end JobStage

end DailyBars
