import DailyBars.Collect.LockedRun
import DailyBars.Proofs.Session
import DailyBars.Storage.Redis

/-!
# A locked run, stage by stage

A job under a lock of a Redis server goes through stages. In some it waits for the answer to the one
command that it has sent; what it does next depends on that answer alone. `LockStage.command?` is
the command of a stage and `LockStage.afterReply` the stage after its answer, so that the run can be
followed while commands, answers and other processes come in between. `follow_starting` says that the
stages one after the other are the program itself.
-/

namespace DailyBars

/-- The commands of a run, each of which is sent once at most. -/
inductive LockRequest where
  /-- Takes the lock. -/
  | acquire
  /-- Gives the lock back. -/
  | release
  /-- Makes the script known that gives the lock back. -/
  | load
  /-- Gives the lock back, once the script is known. -/
  | releaseAgain
  deriving DecidableEq, Repr

/-- Where a run under a lock is; `hold` is how much longer the lock is to be kept, in nanoseconds. -/
inductive LockStage (α : Type) where
  | starting
  /-- Waiting for the lock. -/
  | acquiring (lock : RunLock)
  /-- The job is running. -/
  | working (lock : RunLock)
  /-- The job has ended. -/
  | worked (a : α) (lock : RunLock)
  /-- Waiting for the lock to be given back. -/
  | releasing (a : α) (lock : RunLock) (hold : Nat)
  /-- Waiting for the script to be known. -/
  | loading (a : α) (lock : RunLock) (hold : Nat)
  /-- Waiting for the lock to be given back, with the script known. -/
  | releasingAgain (a : α) (lock : RunLock) (hold : Nat)
  | finished (r : JobRun α)

/-- The milliseconds of a hold, as a number of 64 bits. -/
def holdMillis (hold : Nat) : Nat := hold / 1000000 % UInt64.size

namespace LockStage

variable {σ α : Type}

/-- The request whose answer a stage waits for. -/
def request? : LockStage α → Option LockRequest
  | acquiring .. => some .acquire
  | releasing .. => some .release
  | loading .. => some .load
  | releasingAgain .. => some .releaseAgain
  | _ => none

/-- The command that is sent when a stage begins. -/
def command? (key : String) : LockStage α → Option RedisCommand
  | acquiring lock => some (.setIfAbsent key lock.token (redisTtl lock.atMost))
  | releasing _ lock hold | releasingAgain _ lock hold =>
    some (.release key lock.token (holdMillis hold))
  | loading .. => some .loadRelease
  | _ => none

/-- The stage after the answer to its command. -/
def afterReply (stage : LockStage α) (r : Except RedisError RedisReply) : LockStage α :=
  match stage, r with
  | acquiring lock, .ok reply => if reply.toText?.isSome then working lock else finished .skipped
  | acquiring _, .error _ => finished .skipped
  | releasing a _ _, .ok _ => finished (.executed a)
  | releasing a lock hold, .error e =>
    if e.isUnknownScript then loading a lock hold else finished (.executed a)
  | loading a lock hold, .ok _ => releasingAgain a lock hold
  | loading a _ _, .error _ => finished (.executed a)
  | releasingAgain a _ _, _ => finished (.executed a)
  | stage, _ => stage

/-- The stage after the job, once the clock was read. -/
def release (a : α) (lock : RunLock) (now : Nat) : LockStage α :=
  releasing a lock ((lock.remainingHold now).getD 0)

/-! ### What is logged -/

/-- Logs that a lock could not be given back. -/
def logUnreleased (name : String) (e : RedisError) : Act σ Unit :=
  Act.emit .warn .lock "Failed to release run lock"
    [("lock", .text name), ("error", .text (DataError.ofRedis e).toStorage.message)]

/-- Logs the end of a run that has an answer to giving the lock back. -/
def logReleased (lock : RunLock) (hold : Nat) (reply : RedisReply) : Act σ Unit :=
  match reply.toInt with
  | .error e => logUnreleased lock.name e
  | .ok n =>
    if 0 < n then
      Act.emit .debug .redis "Run lock released"
        [("lock", .text lock.name), ("hold_ms", .nat (holdMillis hold))]
    else
      Act.emit .debug .redis "Run lock already expired or taken over" [("lock", .text lock.name)]

/-- Logs what an answer says. -/
def logReply (stage : LockStage α) (r : Except RedisError RedisReply) : Act σ Unit :=
  match stage, r with
  | acquiring lock, .ok reply =>
    if reply.toText?.isSome then
      Act.emit .debug .redis "Run lock acquired" [("lock", .text lock.name)]
    else
      Act.emit .info .lock "Job is running elsewhere, skipping" [("lock", .text lock.name)]
  | acquiring lock, .error e =>
    Act.emit .error .lock "Failed to acquire run lock, skipping"
      [("lock", .text lock.name), ("error", .text (DataError.ofRedis e).toStorage.message)]
  | releasing _ lock hold, .ok reply | releasingAgain _ lock hold, .ok reply =>
    logReleased lock hold reply
  | releasing _ lock _, .error e =>
    if e.isUnknownScript then pure () else logUnreleased lock.name e
  | loading _ lock _, .error e | releasingAgain _ lock _, .error e => logUnreleased lock.name e
  | _, _ => pure ()

/-! ### The stages are the program -/

/-- Does what a stage asks for, with a connection on which an answer follows its command at once. -/
def act (c : RedisCache σ) (holder : String) (freshId : Act σ String) (name : String)
    (terms : LockTerms) (job : Act σ α) (stage : LockStage α) : Act σ (LockStage α) :=
  match stage.command? (c.lockKey name) with
  | some command => do
    let r ← (c.link command).run
    stage.logReply r
    return stage.afterReply r
  | none =>
    match stage with
    | starting => do
      let token := holder ++ ":" ++ (← freshId)
      return acquiring ⟨name, token, ← Act.uptime, terms.atLeast, terms.atMost⟩
    | working lock => return worked (← job) lock
    | worked a lock => return release a lock (← Act.uptime)
    | stage => return stage

/-- Does what a number of stages ask for, one after the other. -/
def follow (c : RedisCache σ) (holder : String) (freshId : Act σ String) (name : String)
    (terms : LockTerms) (job : Act σ α) (stage : LockStage α) : (count : Nat) → Act σ (LockStage α)
  | 0 => return stage
  | count + 1 => do
    let next ← stage.act c holder freshId name terms job
    next.follow c holder freshId name terms job count

section Follow

variable (c : RedisCache σ) (holder : String) (freshId : Act σ String) (name : String)
  (terms : LockTerms) (job : Act σ α)

@[simp] theorem follow_finished (r : JobRun α) (count : Nat) (s : Session σ) :
    Act.exec ((finished r).follow c holder freshId name terms job count) s = (finished r, s) := by
  induction count with
  | zero => rfl
  | succ count ih => exact ih

/-- The last part of the program, once the job has ended. -/
def giveBack (a : α) (lock : RunLock) : Act σ (JobRun α) := do
  match ← ((c.locks holder freshId).release lock).run with
  | .ok _ => return .executed a
  | .error (.store e) =>
    Act.emit .warn .lock "Failed to release run lock"
      [("lock", .text lock.name), ("error", .text e.message)]
    return .executed a
  | .error .beyondClock => return .brokenOff

theorem exec_runRelease (key token : String) (hold : Nat) (s : Session σ) :
    (c.runRelease key token hold).exec s =
      match (c.link (.release key token hold)).exec s with
      | (.ok reply, s₁) => (.ok reply, s₁)
      | (.error e, s₁) =>
        if e.isUnknownScript then
          match (c.link .loadRelease).exec s₁ with
          | (.ok _, s₂) => (c.link (.release key token hold)).exec s₂
          | (.error e, s₂) => (.error e, s₂)
        else (.error e, s₁) := by
  unfold RedisCache.runRelease
  rw [Attempt.exec_mk, Act.exec_bind, Act.exec_run]
  rcases (c.link (.release key token hold)).exec s with ⟨r, s₁⟩
  cases r with
  | ok reply => rfl
  | error e =>
      dsimp only
      split
      · rw [Act.exec_bind, Act.exec_run]
        rcases (c.link .loadRelease).exec s₁ with ⟨r, s₂⟩
        cases r <;> rfl
      · rfl

theorem exec_releaseLock (key token : String) (hold : Nat) (s : Session σ) :
    (c.releaseLock key token hold).exec s =
      match (c.runRelease (c.lockKey key) token (holdMillis hold)).exec s with
      | (.ok reply, s₁) => ((reply.toInt.map fun n => decide (0 < n)).mapError .ofRedis, s₁)
      | (.error e, s₁) => (.error (.ofRedis e), s₁) := by
  unfold RedisCache.releaseLock
  rw [Attempt.exec_bind, Attempt.exec_orElseAs]
  change _ = match (c.runRelease (c.lockKey key) token (hold / 1000000 % UInt64.size)).exec s with
    | (.ok reply, s₁) => ((reply.toInt.map fun n => decide (0 < n)).mapError DataError.ofRedis, s₁)
    | (.error e, s₁) => (.error (DataError.ofRedis e), s₁)
  rcases (c.runRelease (c.lockKey key) token (hold / 1000000 % UInt64.size)).exec s with ⟨r, s₁⟩
  cases r with
  | error e => rfl
  | ok reply =>
      dsimp only [mapError_ok]
      rw [Attempt.exec_bind, Attempt.exec_orElseAs, Attempt.exec_ofResult]
      cases reply.toInt <;> rfl

/-- Giving a lock back ends with a line in the log for the answer to the script. -/
theorem exec_giveBack (a : α) (lock : RunLock) (s : Session σ) :
    let hold := (lock.remainingHold s.clock.uptime).getD 0
    Act.exec (giveBack c holder freshId a lock) s = (.executed a,
      match (c.runRelease (c.lockKey lock.name) lock.token (holdMillis hold)).exec s with
      | (.ok reply, s₁) => (Act.exec (logReleased lock hold reply) s₁).2
      | (.error e, s₁) => (Act.exec (logUnreleased lock.name e) s₁).2) := by
  intro hold
  unfold giveBack RedisCache.locks
  dsimp only
  rw [Act.exec_bind, Act.exec_run, Attempt.exec_bind, Attempt.exec_ofAct]
  dsimp only
  rw [Act.exec_uptime]
  dsimp only
  rw [Attempt.exec_bind, Attempt.exec_orElseAs, exec_releaseLock]
  rcases (c.runRelease (c.lockKey lock.name) lock.token (holdMillis hold)).exec s with ⟨r, s₁⟩
  cases r with
  | error e => rfl
  | ok reply =>
      unfold logReleased
      dsimp only
      cases reply.toInt with
      | error e => rfl
      | ok n =>
          dsimp only [Except.map, mapError_ok]
          by_cases hn : 0 < n
          · simp only [hn, decide_true, if_true]
            rfl
          · simp only [hn, decide_false, if_false]
            rfl

/-- Waiting for an answer is one stage. -/
theorem follow_waiting {stage : LockStage α} {command : RedisCommand}
    (h : stage.command? (c.lockKey name) = some command) (count : Nat) (s : Session σ) :
    Act.exec (stage.follow c holder freshId name terms job (count + 1)) s =
      match (c.link command).exec s with
      | (r, s₁) => Act.exec ((stage.afterReply r).follow c holder freshId name terms job count)
          (Act.exec (stage.logReply r) s₁).2 := by
  rw [follow, Act.exec_bind]
  unfold act
  rw [h]
  rfl

/-- Giving the lock back is the stages after the job. -/
theorem follow_worked (a : α) (lock : RunLock) (hname : lock.name = name) (s : Session σ) :
    Act.exec ((worked a lock).follow c holder freshId name terms job 4) s =
      (finished (Act.exec (giveBack c holder freshId a lock) s).1,
        (Act.exec (giveBack c holder freshId a lock) s).2) := by
  subst hname
  have hread : Act.exec ((worked a lock).follow c holder freshId lock.name terms job 4) s =
      Act.exec ((release a lock s.clock.uptime).follow c holder freshId lock.name terms job 3) s :=
    rfl
  rw [hread, exec_giveBack, release]
  generalize (lock.remainingHold s.clock.uptime).getD 0 = hold
  rw [follow_waiting c holder freshId lock.name terms job rfl 2, exec_runRelease]
  rcases (c.link (.release (c.lockKey lock.name) lock.token (holdMillis hold))).exec s with ⟨r, s₁⟩
  cases r with
  | ok reply => simp only [afterReply, logReply, follow_finished]
  | error e =>
      by_cases hunknown : e.isUnknownScript
      · -- The server does not know the script: it is told, and asked again.
        simp only [afterReply, logReply, if_pos hunknown, Act.exec_pure]
        rw [follow_waiting c holder freshId lock.name terms job rfl 1]
        rcases (c.link .loadRelease).exec s₁ with ⟨r, s₂⟩
        cases r with
        | error e => simp only [afterReply, logReply, follow_finished]
        | ok reply =>
            simp only [afterReply, logReply, Act.exec_pure]
            rw [follow_waiting c holder freshId lock.name terms job rfl 0]
            rcases (c.link (.release (c.lockKey lock.name) lock.token (holdMillis hold))).exec s₂
              with ⟨r, s₃⟩
            cases r <;> simp only [afterReply, logReply, follow_finished]
      · simp only [afterReply, logReply, if_neg hunknown, follow_finished]

/-- Taking a lock is one command, with the time that was read before it. -/
theorem exec_tryAcquire (atMost atLeast : Nat) (s : Session σ) :
    ((c.locks holder freshId).tryAcquire name atMost atLeast).exec s =
      match Act.exec freshId s with
      | (id, s₁) =>
        let lock : RunLock := ⟨name, holder ++ ":" ++ id, s₁.clock.uptime, atLeast, atMost⟩
        match (c.link (.setIfAbsent (c.lockKey name) lock.token (redisTtl atMost))).exec s₁ with
        | (.ok reply, s₂) =>
          if reply.toText?.isSome then
            (.ok (some lock), (Act.exec (Act.emit .debug .redis "Run lock acquired"
              [("lock", .text name)]) s₂).2)
          else (.ok none, s₂)
        | (.error e, s₂) => (.error (.store (DataError.ofRedis e).toStorage), s₂) := by
  unfold RedisCache.locks RedisCache.acquireLock RedisCache.send
  dsimp only
  rw [Attempt.exec_bind, Attempt.exec_ofAct]
  rcases Act.exec freshId s with ⟨id, s₁⟩
  dsimp only
  rw [Attempt.exec_bind, Attempt.exec_ofAct, Act.exec_uptime]
  dsimp only
  rw [Attempt.exec_bind, Attempt.exec_orElseAs, Attempt.exec_bind, Attempt.exec_orElseAs]
  rcases (c.link (.setIfAbsent (c.lockKey name) (holder ++ ":" ++ id) (redisTtl atMost))).exec s₁
    with ⟨r, s₂⟩
  cases r with
  | error e => rfl
  | ok reply =>
      dsimp only [mapError_ok, Attempt.exec_pure]
      by_cases htaken : reply.toText?.isSome
      · simp only [htaken, if_true]
        rfl
      · simp only [htaken]
        rfl

/-- **The stages are the program**: a job under a lock of the server goes through them, one after the
other, to its end. -/
theorem follow_starting (s : Session σ) :
    Act.exec (starting.follow c holder freshId name terms job 7) s =
      (finished (Act.exec ((c.locks holder freshId).runLocked name terms job) s).1,
        (Act.exec ((c.locks holder freshId).runLocked name terms job) s).2) := by
  unfold RunLocks.runLocked
  rw [Act.exec_bind, Act.exec_run, exec_tryAcquire, follow, Act.exec_bind]
  rcases hid : Act.exec freshId s with ⟨id, s₁⟩
  have hstart : Act.exec (act c holder freshId name terms job starting) s =
      (acquiring ⟨name, holder ++ ":" ++ id, s₁.clock.uptime, terms.atLeast, terms.atMost⟩, s₁) := by
    change Act.exec (freshId >>= fun id => _) s = _
    rw [Act.exec_bind, hid]
    rfl
  rw [hstart]
  dsimp only
  -- One request takes the lock; up to three more give it back, and the job stands between them.
  rw [follow_waiting c holder freshId name terms job rfl 5]
  rcases (c.link (.setIfAbsent (c.lockKey name) (holder ++ ":" ++ id) (redisTtl terms.atMost))).exec
    s₁ with ⟨r, s₂⟩
  cases r with
  | error e =>
      simp only [afterReply, logReply, follow_finished]
      rfl
  | ok reply =>
      by_cases htaken : reply.toText?.isSome
      · -- The lock is taken: the job runs, and the lock is given back.
        simp only [afterReply, logReply, htaken, if_true]
        let lock : RunLock :=
          ⟨name, holder ++ ":" ++ id, s₁.clock.uptime, terms.atLeast, terms.atMost⟩
        let s₃ := (Act.exec (Act.emit .debug .redis "Run lock acquired" [("lock", .text name)]) s₂).2
        have hwork : Act.exec (act c holder freshId name terms job (working lock)) s₃ =
            (worked (Act.exec job s₃).1 lock, (Act.exec job s₃).2) := rfl
        rw [follow, Act.exec_bind, hwork]
        dsimp only
        rw [follow_worked c holder freshId name terms job _ lock rfl, Act.exec_bind]
        rfl
      · simp only [afterReply, logReply, htaken]
        rfl

end Follow

end LockStage

end DailyBars
