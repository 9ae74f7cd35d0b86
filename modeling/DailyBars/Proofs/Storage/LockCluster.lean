import DailyBars.Proofs.Storage.LockStages
import DailyBars.Storage.RedisKeys
import Mathlib.Data.List.Nodup
import Mathlib.Data.List.Pairwise
import Mathlib.Logic.Function.Basic
import Mathlib.Logic.Relation

/-!
# Many runs under one lock

Any number of runs under a lock of the same name, in whatever processes, and the one server that keeps
the lock. A command that was sent may be run by the server at any later time, its answer may arrive
at any time after that, and instead of an answer a failure may come, whether the command was run or
not. All clocks agree.

The invariant is about the run that was the last to take the lock: from when its key is gone the run
has nothing to protect any more (`LockRun.Cleared`). Its key is gone only when its time is over, which
is counted from after the time that the run knows as the beginning, or when the run itself has given
it back, which it does only after its job.
-/

namespace DailyBars

/-- The runs that share a lock: the name of the lock, its key at the server, and the token and the
terms of each run. -/
structure LockSetup where
  name : String
  key : String
  token : Nat → String
  terms : Nat → LockTerms

/-- The lock that a run asks for at a given time. -/
def LockSetup.lock (u : LockSetup) (i : Nat) (now : Nat) : RunLock :=
  ⟨u.name, u.token i, now, (u.terms i).atLeast, (u.terms i).atMost⟩

/-- A run, with what it has sent, what the server has answered, and when its job began and ended. -/
structure LockRun where
  stage : LockStage Unit
  /-- The lock that it asks for, once it has read the clock. -/
  lock : Option RunLock
  sent : LockRequest → Option RedisCommand
  /-- What the server answered to the commands that it has run. -/
  answer : LockRequest → Option RedisReply
  startedAt : Option Nat
  endedAt : Option Nat

namespace LockRun

/-- A run that has done nothing yet. -/
def start : LockRun := ⟨.starting, none, fun _ => none, fun _ => none, none, none⟩

/-- The run at the beginning of a stage: its command is sent. -/
def enter (r : LockRun) (key : String) (stage : LockStage Unit) : LockRun :=
  match stage.request? with
  | some q => { r with stage := stage, sent := Function.update r.sent q (stage.command? key) }
  | none => { r with stage := stage }

/-- The run after an answer or a failure; if it has the lock now, its job begins. -/
def receive (r : LockRun) (key : String) (now : Nat) (reply : Except RedisError RedisReply) :
    LockRun :=
  match r.stage.afterReply reply with
  | .working lock => { r with stage := .working lock, startedAt := some now }
  | stage => r.enter key stage

end LockRun

/-- All runs, and the server. -/
structure LockCluster where
  now : Nat
  keys : RedisKeys
  runs : Nat → LockRun
  /-- The runs that have taken the lock, each with the time at which the server gave it; the last
  one first. -/
  taken : List (Nat × Nat)

namespace LockCluster

/-- Runs that have done nothing yet, with a server that may hold keys of others. -/
def start (now : Nat) (keys : RedisKeys) : LockCluster := ⟨now, keys, fun _ => .start, []⟩

/-- The cluster with a run replaced. -/
def setRun (w : LockCluster) (i : Nat) (r : LockRun) : LockCluster :=
  { w with runs := Function.update w.runs i r }

/-- The server runs a command of a run. -/
def serve (w : LockCluster) (i : Nat) (q : LockRequest) (c : RedisCommand) : LockCluster :=
  let reply := (w.keys.run w.now c).1
  let r := w.runs i
  { now := w.now
    keys := (w.keys.run w.now c).2
    runs := Function.update w.runs i { r with answer := Function.update r.answer q (some reply) }
    taken := if q = .acquire ∧ reply.toText?.isSome then (i, w.now) :: w.taken else w.taken }

end LockCluster

/-- One step of the cluster. -/
inductive LockStep (u : LockSetup) (w : LockCluster) : LockCluster → Prop where
  | pass (nanos : Nat) : LockStep u w { w with now := w.now + nanos }
  /-- A run reads the clock and asks for the lock. -/
  | begin (i : Nat) (h : (w.runs i).stage = .starting) :
      LockStep u w (w.setRun i ({ w.runs i with lock := some (u.lock i w.now) }.enter u.key
        (.acquiring (u.lock i w.now))))
  /-- The server runs a command that it has not run yet. -/
  | serve (i : Nat) (q : LockRequest) (c : RedisCommand) (hsent : (w.runs i).sent q = some c)
      (hopen : (w.runs i).answer q = none) : LockStep u w (w.serve i q c)
  /-- An answer arrives at the run that waits for it. -/
  | reply (i : Nat) (q : LockRequest) (r : RedisReply)
      (hwaits : (w.runs i).stage.request? = some q) (hanswer : (w.runs i).answer q = some r) :
      LockStep u w (w.setRun i ((w.runs i).receive u.key w.now (.ok r)))
  /-- A failure arrives in place of an answer. -/
  | fail (i : Nat) (e : RedisError) (hwaits : (w.runs i).stage.request?.isSome) :
      LockStep u w (w.setRun i ((w.runs i).receive u.key w.now (.error e)))
  /-- The job of a run ends. -/
  | finish (i : Nat) (lock : RunLock) (h : (w.runs i).stage = .working lock) :
      LockStep u w (w.setRun i
        { w.runs i with stage := .worked () lock, endedAt := some w.now })
  /-- A run reads the clock and gives the lock back. -/
  | release (i : Nat) (lock : RunLock) (h : (w.runs i).stage = .worked () lock) :
      LockStep u w (w.setRun i ((w.runs i).enter u.key (LockStage.release () lock w.now)))

/-- A cluster that others come to from it. -/
abbrev LockCluster.Leads (u : LockSetup) : LockCluster → LockCluster → Prop :=
  Relation.ReflTransGen (LockStep u)

/-! ### What a run knows -/

namespace LockRun

/-- The run ended its job, read the clock after that, and found that the lock is to be kept for the
hold. -/
def Holds (r : LockRun) (now : Nat) (lock : RunLock) (hold : Nat) : Prop :=
  ∃ e t, r.endedAt = some e ∧ e ≤ t ∧ lock.acquiredAt ≤ t ∧ t ≤ now ∧
    hold = (lock.remainingHold t).getD 0

/-- What the stage of a run says of it. -/
def StageSound (r : LockRun) (now : Nat) : Prop :=
  match r.stage with
  | .starting => r.lock = none ∧ r.endedAt = none ∧ ∀ q, r.sent q = none
  | .acquiring lock | .working lock => r.lock = some lock ∧ r.endedAt = none
  | .worked _ lock => r.lock = some lock ∧ ∃ e ≤ now, r.endedAt = some e
  | .releasing _ lock hold | .loading _ lock hold | .releasingAgain _ lock hold =>
    r.lock = some lock ∧ r.Holds now lock hold
  | .finished _ => True

/-- What a command that was sent asks for. -/
def CommandSound (r : LockRun) (key : String) (now : Nat) (q : LockRequest) (c : RedisCommand) :
    Prop :=
  match q with
  | .acquire => ∃ lock, r.lock = some lock ∧ c = .setIfAbsent key lock.token (redisTtl lock.atMost)
  | .load => c = .loadRelease
  | .release | .releaseAgain => ∃ lock hold, r.lock = some lock ∧ r.Holds now lock hold ∧
      c = .release key lock.token (holdMillis hold)

/-- What holds of every run, but for its stage. -/
structure Known (u : LockSetup) (now : Nat) (taken : List (Nat × Nat)) (i : Nat) (r : LockRun) :
    Prop where
  lock : ∀ lock, r.lock = some lock → ∃ a ≤ now, lock = u.lock i a
  commands : ∀ q c, r.sent q = some c → r.CommandSound u.key now q c
  granted : ∀ reply, r.answer .acquire = some reply → reply.toText?.isSome →
    ∃ s ≤ now, (i, s) ∈ taken
  answered : ∀ s, (i, s) ∈ taken → r.answer .acquire ≠ none
  started : ∀ t, r.startedAt = some t → ∃ s ≤ t, (i, s) ∈ taken

/-- What holds of every run. -/
structure Sound (u : LockSetup) (now : Nat) (taken : List (Nat × Nat)) (i : Nat) (r : LockRun) : Prop
    extends Known u now taken i r where
  stage : r.StageSound now

/-- The run has nothing to protect from a given time on: its job has ended, or it was allowed to take
until then; and the time is over for which the lock is kept at least, but for the part of a
millisecond that the server does not count. -/
def Cleared (r : LockRun) (t : Nat) : Prop :=
  ∃ lock, r.lock = some lock ∧
    ((∃ e ≤ t, r.endedAt = some e) ∨ lock.acquiredAt + lock.atMost ≤ t) ∧
    lock.acquiredAt + lock.atLeast < t + 1000000

/-- The second run is the first at some later time, as far as its lock and its job are concerned. -/
structure Extends (r r' : LockRun) : Prop where
  lock : ∀ lock, r.lock = some lock → r'.lock = some lock
  endedAt : ∀ e, r.endedAt = some e → r'.endedAt = some e

variable {u : LockSetup} {r r' : LockRun} {now now' t t' i : Nat} {taken taken' : List (Nat × Nat)}
  {lock : RunLock} {hold : Nat}

theorem Extends.refl (r : LockRun) : r.Extends r := ⟨fun _ h => h, fun _ h => h⟩

theorem Cleared.mono (h : r.Cleared t) (hext : r.Extends r') (ht : t ≤ t') : r'.Cleared t' := by
  obtain ⟨lock, hlock, hend, hleast⟩ := h
  refine ⟨lock, hext.lock lock hlock, ?_, by omega⟩
  rcases hend with ⟨e, he, hended⟩ | hmost
  · exact .inl ⟨e, Nat.le_trans he ht, hext.endedAt e hended⟩
  · exact .inr (Nat.le_trans hmost ht)

theorem Holds.mono (h : r.Holds now lock hold) (hended : ∀ e, r.endedAt = some e → r'.endedAt = some e)
    (hnow : now ≤ now') : r'.Holds now' lock hold := by
  obtain ⟨e, t, he, het, hat, ht, hhold⟩ := h
  exact ⟨e, t, hended e he, het, hat, Nat.le_trans ht hnow, hhold⟩

theorem CommandSound.mono {key : String} {q : LockRequest} {c : RedisCommand}
    (h : r.CommandSound key now q c) (hext : r.Extends r') (hnow : now ≤ now') :
    r'.CommandSound key now' q c := by
  cases q with
  | acquire =>
      obtain ⟨lock, hlock, hc⟩ := h
      exact ⟨lock, hext.lock lock hlock, hc⟩
  | load => exact h
  | release | releaseAgain =>
      obtain ⟨lock, hold, hlock, hholds, hc⟩ := h
      exact ⟨lock, hold, hext.lock lock hlock, hholds.mono hext.endedAt hnow, hc⟩

theorem StageSound.mono (h : r.StageSound now) (hnow : now ≤ now') : r.StageSound now' := by
  unfold StageSound at h ⊢
  cases hstage : r.stage with
  | starting | acquiring lock | working lock => simpa only [hstage] using h
  | worked a lock =>
      simp only [hstage] at h ⊢
      obtain ⟨hlock, e, he, hended⟩ := h
      exact ⟨hlock, e, Nat.le_trans he hnow, hended⟩
  | releasing a lock hold | loading a lock hold | releasingAgain a lock hold =>
      simp only [hstage] at h ⊢
      exact ⟨h.1, h.2.mono (fun _ he => he) hnow⟩
  | finished => trivial

/-! ### What a step of a run keeps -/

theorem sound_start (u : LockSetup) (now i : Nat) : start.Sound u now [] i where
  lock := by simp [start]
  commands := by simp [start]
  granted := by simp [start]
  answered := by simp
  started := by simp [start]
  stage := ⟨rfl, rfl, fun _ => rfl⟩

/-- Time that passes, and other runs that take the lock, change nothing for a run. -/
theorem Sound.mono (h : r.Sound u now taken i) (hnow : now ≤ now')
    (htaken : ∀ x ∈ taken, x ∈ taken') (hself : ∀ s, (i, s) ∈ taken' → (i, s) ∈ taken) :
    r.Sound u now' taken' i where
  lock lock hlock := by
    obtain ⟨a, ha, heq⟩ := h.lock lock hlock
    exact ⟨a, Nat.le_trans ha hnow, heq⟩
  commands q c hsent := (h.commands q c hsent).mono (Extends.refl r) hnow
  granted reply hreply htext := by
    obtain ⟨s, hs, hmem⟩ := h.granted reply hreply htext
    exact ⟨s, Nat.le_trans hs hnow, htaken _ hmem⟩
  answered s hs := h.answered s (hself s hs)
  started t ht := by
    obtain ⟨s, hs, hmem⟩ := h.started t ht
    exact ⟨s, hs, htaken _ hmem⟩
  stage := h.stage.mono hnow

@[simp] theorem lock_enter (r : LockRun) (key : String) (stage : LockStage Unit) :
    (r.enter key stage).lock = r.lock := by
  unfold enter
  split <;> rfl

@[simp] theorem endedAt_enter (r : LockRun) (key : String) (stage : LockStage Unit) :
    (r.enter key stage).endedAt = r.endedAt := by
  unfold enter
  split <;> rfl

theorem extends_enter (r : LockRun) (key : String) (stage : LockStage Unit) :
    r.Extends (r.enter key stage) :=
  ⟨fun lock h => by rwa [lock_enter], fun e h => by rwa [endedAt_enter]⟩

/-- The command of a stage asks for what the stage says. -/
theorem commandSound_of_stage {stage : LockStage Unit} {key : String} {q : LockRequest}
    {c : RedisCommand} (h : StageSound { r with stage := stage } now)
    (hq : stage.request? = some q) (hc : stage.command? key = some c) :
    r.CommandSound key now q c := by
  cases stage with
  | starting | working lock | worked a lock | finished result => cases hq
  | acquiring lock =>
      cases hq
      cases hc
      exact ⟨lock, h.1, rfl⟩
  | loading a lock hold =>
      cases hq
      cases hc
      exact rfl
  | releasing a lock hold | releasingAgain a lock hold =>
      cases hq
      cases hc
      exact ⟨lock, hold, h.1, h.2, rfl⟩

/-- Beginning a stage keeps what is known, if the stage is sound. -/
theorem Known.enter (h : r.Known u now taken i) {stage : LockStage Unit}
    (hstage : StageSound { r with stage := stage } now) :
    (r.enter u.key stage).Sound u now taken i := by
  have hext := extends_enter r u.key stage
  cases hq : stage.request? with
  | none =>
      have heq : r.enter u.key stage = { r with stage := stage } := by
        unfold LockRun.enter
        rw [hq]
      rw [heq]
      exact ⟨⟨h.lock, h.commands, h.granted, h.answered, h.started⟩, hstage⟩
  | some q =>
      have heq : r.enter u.key stage =
          { r with stage := stage, sent := Function.update r.sent q (stage.command? u.key) } := by
        unfold LockRun.enter
        rw [hq]
      rw [heq] at hext ⊢
      refine ⟨⟨h.lock, ?_, h.granted, h.answered, h.started⟩, ?_⟩
      · intro q' c hsent
        dsimp only at hsent
        -- The new command is that of the stage; all others were sent before.
        by_cases hsame : q' = q
        · subst hsame
          rw [Function.update_self] at hsent
          exact (commandSound_of_stage hstage hq hsent).mono hext (Nat.le_refl now)
        · rw [Function.update_of_ne hsame] at hsent
          exact (h.commands q' c hsent).mono hext (Nat.le_refl now)
      · cases stage with
        | starting => cases hq
        | _ => exact hstage

/-- Asking for the lock. -/
theorem Sound.begin (h : r.Sound u now taken i) (hstage : r.stage = .starting) :
    ({ r with lock := some (u.lock i now) }.enter u.key (.acquiring (u.lock i now))).Sound u now
      taken i ∧
    r.Extends ({ r with lock := some (u.lock i now) }.enter u.key (.acquiring (u.lock i now))) := by
  have hstart := h.stage
  unfold StageSound at hstart
  simp only [hstage] at hstart
  obtain ⟨hlock, hended, hsent⟩ := hstart
  let asking : LockRun := { r with lock := some (u.lock i now) }
  have hasking : StageSound { asking with stage := .acquiring (u.lock i now) } now := ⟨rfl, hended⟩
  have hknown : asking.Known u now taken i := by
    refine ⟨?_, ?_, h.granted, h.answered, h.started⟩
    · rintro lock ⟨⟩
      exact ⟨now, Nat.le_refl now, rfl⟩
    · intro q c hc
      cases (hsent q).symm.trans hc
  refine ⟨hknown.enter hasking, ⟨?_, ?_⟩⟩
  · intro lock hl
    cases hlock.symm.trans hl
  · intro e he
    cases hended.symm.trans he

/-- Only the answer to the request for the lock begins a job. -/
theorem afterReply_eq_working {stage : LockStage Unit} {reply : Except RedisError RedisReply}
    (hwaits : stage.request?.isSome) (h : stage.afterReply reply = .working lock) :
    ∃ a, stage = .acquiring lock ∧ reply = .ok a ∧ a.toText?.isSome := by
  cases stage with
  | starting | working | worked | finished => cases hwaits
  | acquiring lock' =>
      cases reply with
      | error e => cases h
      | ok a =>
          by_cases htext : a.toText?.isSome
          · simp only [LockStage.afterReply, htext, if_true] at h
            cases h
            exact ⟨a, rfl, rfl, htext⟩
          · simp [LockStage.afterReply, htext] at h
  | releasing a lock' hold =>
      cases reply with
      | ok => cases h
      | error e => by_cases hunknown : e.isUnknownScript <;> simp [LockStage.afterReply, hunknown] at h
  | loading a lock' hold | releasingAgain a lock' hold => cases reply <;> cases h

/-- The stage after an answer is sound, unless the job begins. -/
theorem stageSound_afterReply {reply : Except RedisError RedisReply} (h : r.StageSound now)
    (hwaits : r.stage.request?.isSome) (hno : ∀ lock, r.stage.afterReply reply ≠ .working lock) :
    StageSound { r with stage := r.stage.afterReply reply } now := by
  unfold StageSound at h
  cases hstage : r.stage with
  | starting | working | worked | finished =>
      rw [hstage] at hwaits
      cases hwaits
  | acquiring lock =>
      rw [hstage] at hno
      cases reply with
      | error e => trivial
      | ok a =>
          -- The answer that grants the lock is the one that begins the job.
          by_cases htext : a.toText?.isSome
          · exact absurd (if_pos htext) (hno lock)
          · simp only [LockStage.afterReply, htext]
            trivial
  | releasing a lock hold =>
      simp only [hstage] at h
      cases reply with
      | ok => trivial
      | error e =>
          by_cases hunknown : e.isUnknownScript
          · simp only [LockStage.afterReply, hunknown, if_true]
            exact h
          · simp only [LockStage.afterReply, hunknown]
            trivial
  | loading a lock hold =>
      simp only [hstage] at h
      cases reply with
      | ok => exact h
      | error e => trivial
  | releasingAgain a lock hold => cases reply <;> trivial

/-- An answer or a failure; only a run that has taken the lock begins its job. -/
theorem Sound.receive (h : r.Sound u now taken i) (reply : Except RedisError RedisReply)
    (hwaits : r.stage.request?.isSome)
    (hgranted : ∀ a, r.stage.request? = some .acquire → reply = .ok a → a.toText?.isSome →
      ∃ s ≤ now, (i, s) ∈ taken) :
    (r.receive u.key now reply).Sound u now taken i ∧ r.Extends (r.receive u.key now reply) := by
  by_cases hworking : ∃ lock, r.stage.afterReply reply = .working lock
  · obtain ⟨lock, hworking⟩ := hworking
    obtain ⟨a, hstage, hreply, htext⟩ := afterReply_eq_working hwaits hworking
    have heq : r.receive u.key now reply =
        { r with stage := .working lock, startedAt := some now } := by
      unfold LockRun.receive
      rw [hworking]
    have hsound := h.stage
    unfold StageSound at hsound
    simp only [hstage] at hsound
    rw [heq]
    refine ⟨⟨⟨h.lock, ?_, h.granted, h.answered, ?_⟩, hsound⟩, ⟨fun _ hl => hl, fun _ he => he⟩⟩
    · exact fun q c hsent => h.commands q c hsent
    · rintro t ⟨⟩
      exact hgranted a (by rw [hstage]; rfl) hreply htext
  · have hno : ∀ lock, r.stage.afterReply reply ≠ .working lock := fun lock heq =>
      hworking ⟨lock, heq⟩
    have heq : r.receive u.key now reply = r.enter u.key (r.stage.afterReply reply) := by
      unfold LockRun.receive
      split
      · rename_i lock hworks
        exact absurd hworks (hno lock)
      · rfl
    rw [heq]
    exact ⟨h.toKnown.enter (stageSound_afterReply h.stage hwaits hno), extends_enter _ _ _⟩

/-- The end of a job. -/
theorem Sound.finish (h : r.Sound u now taken i) (hstage : r.stage = .working lock) :
    Sound u now taken i { r with stage := .worked () lock, endedAt := some now } ∧
    r.Extends { r with stage := .worked () lock, endedAt := some now } := by
  have hworking := h.stage
  unfold StageSound at hworking
  simp only [hstage] at hworking
  obtain ⟨hlock, hended⟩ := hworking
  have hext : r.Extends { r with stage := .worked () lock, endedAt := some now } :=
    ⟨fun _ hl => hl, fun e he => by cases hended.symm.trans he⟩
  refine ⟨⟨⟨h.lock, ?_, h.granted, h.answered, h.started⟩, ⟨hlock, now, Nat.le_refl now, rfl⟩⟩, hext⟩
  intro q c hsent
  exact (h.commands q c hsent).mono hext (Nat.le_refl now)

/-- Giving the lock back. -/
theorem Sound.release (h : r.Sound u now taken i) (hstage : r.stage = .worked () lock) :
    (r.enter u.key (LockStage.release () lock now)).Sound u now taken i := by
  have hworked := h.stage
  unfold StageSound at hworked
  simp only [hstage] at hworked
  obtain ⟨hlock, e, he, hended⟩ := hworked
  obtain ⟨a, ha, heq⟩ := h.lock lock hlock
  refine h.toKnown.enter ⟨hlock, e, now, hended, he, ?_, Nat.le_refl now, rfl⟩
  rw [heq]
  exact ha

/-- The server answers a command; the run may have taken the lock by it. -/
theorem Sound.answer (h : r.Sound u now taken i) (q : LockRequest) (reply : RedisReply)
    (htaken : ∀ x ∈ taken, x ∈ taken')
    (hself : ∀ s, (i, s) ∈ taken' → (i, s) ∈ taken ∨ q = .acquire)
    (hgranted : q = .acquire → reply.toText?.isSome → ∃ s ≤ now, (i, s) ∈ taken') :
    Sound u now taken' i { r with answer := Function.update r.answer q (some reply) } := by
  refine ⟨⟨h.lock, h.commands, ?_, ?_, ?_⟩, h.stage⟩
  · intro a ha htext
    dsimp only at ha
    by_cases hq : q = .acquire
    · subst hq
      rw [Function.update_self] at ha
      cases ha
      exact hgranted rfl htext
    · rw [Function.update_of_ne (Ne.symm hq)] at ha
      obtain ⟨s, hs, hmem⟩ := h.granted a ha htext
      exact ⟨s, hs, htaken _ hmem⟩
  · intro s hs
    dsimp only
    by_cases hq : q = .acquire
    · subst hq
      rw [Function.update_self]
      simp
    · rw [Function.update_of_ne (Ne.symm hq)]
      exact h.answered s ((hself s hs).resolve_right hq)
  · intro t ht
    obtain ⟨s, hs, hmem⟩ := h.started t ht
    exact ⟨s, hs, htaken _ hmem⟩

end LockRun

end DailyBars
