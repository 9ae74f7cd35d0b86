import DailyBars.Proofs.Collect.JobStages
import DailyBars.Proofs.Collect.TableHistory
import Mathlib.Logic.Function.Basic
import Mathlib.Logic.Relation

/-!
# Locked runs of one process

Any number of runs under the locks of one process. In between their steps anything else may happen
that leaves the table of the locks alone: other runs go on, jobs do their work, time passes. What
happens is a history (`history_of_leads`), and every history can happen (`leads_of_history`). So what
locks are for holds of every run, and what happens under the locks of some names could have happened
without the others.
-/

namespace DailyBars

variable {σ : Type}

/-! ### Runs -/

/-- Runs under locks in one session, and what has happened to them, the last first. -/
structure LocalRuns (σ : Type) where
  session : Session σ
  stages : Nat → JobStage Unit
  events : List LockEvent

namespace LocalRuns

/-- Runs that have done nothing yet. -/
def start (s : Session σ) : LocalRuns σ := ⟨s, fun _ => .starting, []⟩

/-- A run comes to a stage. -/
def enter (w : LocalRuns σ) (i : Nat) (stage : JobStage Unit) (s : Session σ) : LocalRuns σ where
  session := s
  stages := Function.update w.stages i stage
  events :=
    match (w.stages i).happening? stage with
    | some what => ⟨i, w.session.clock.uptime, what⟩ :: w.events
    | none => w.events

/-- A run does what comes next. The work of its job is among what happens in between. -/
def goOn (plan : LockPlan) (locks : RunLocks σ) (w : LocalRuns σ) (i : Nat) : LocalRuns σ :=
  let r := Act.exec ((w.stages i).act locks (plan.name i) (plan.terms i) (pure ())) w.session
  w.enter i r.1 r.2

end LocalRuns

/-- One step of the runs. -/
inductive LocalStep (plan : LockPlan) (p : Part σ LocalLocks) (w : LocalRuns σ) :
    LocalRuns σ → Prop
  | goOn (i : Nat) : LocalStep plan p w (w.goOn plan (LocalLocks.provider p) i)
  /-- Anything that leaves the table of the locks alone. -/
  | other (s : Session σ) (htable : p.get s.world = p.get w.session.world)
      (htime : w.session.clock.uptime ≤ s.clock.uptime) : LocalStep plan p w { w with session := s }

/-- Runs to which others come. -/
abbrev LocalRuns.Leads (plan : LockPlan) (p : Part σ LocalLocks) :
    LocalRuns σ → LocalRuns σ → Prop :=
  Relation.ReflTransGen (LocalStep plan p)

/-! ### The invariant -/

/-- What has happened to a run in a stage. -/
def JobStage.Sound (i : Nat) : JobStage Unit → List LockEvent → Prop
  | starting, es => es = []
  | working l, es => es = [⟨i, l.acquiredAt, .acquired⟩]
  | worked _ l, es => ∃ stop, es = [⟨i, stop, .ended⟩, ⟨i, l.acquiredAt, .acquired⟩]
  | finished _, es => ∃ e rest, es = e :: rest ∧
      (e.what = .skipped ∨ e.what = .brokeAsking ∨ e.what = .released ∨ e.what = .brokeReleasing)

namespace JobStage

variable {i start stop : Nat} {stage : JobStage Unit}

theorem eq_starting (h : stage.Sound i []) : stage = .starting := by
  cases stage <;> simp [Sound] at h ⊢

theorem exists_working (h : stage.Sound i [⟨i, start, .acquired⟩]) : ∃ l, stage = .working l := by
  cases stage <;> simp [Sound] at h ⊢

theorem exists_worked (h : stage.Sound i [⟨i, stop, .ended⟩, ⟨i, start, .acquired⟩]) :
    ∃ l, stage = .worked () l ∧ l.acquiredAt = start := by
  cases stage <;> simp [Sound] at h ⊢
  exact h.symm

end JobStage

namespace LocalRuns

/-- What holds of the runs at any time. -/
structure Sound (plan : LockPlan) (p : Part σ LocalLocks) (began : Nat) (w : LocalRuns σ) :
    Prop where
  history : LockHistory plan began w.session.clock.uptime w.events
  stage : ∀ i, (w.stages i).Sound i (eventsOf w.events i)
  lock : ∀ i l, (w.stages i).lock? = some l →
    l.name = plan.name i ∧ l.atLeast = (plan.terms i).atLeast
  table : TableSound plan w.session.clock.uptime (p.get w.session.world)
    (fun i => (w.stages i).lock?) w.events

variable {plan : LockPlan} {p : Part σ LocalLocks} {began i : Nat} {w w' : LocalRuns σ}
  {s : Session σ} {lock : RunLock}

theorem sound_start (plan : LockPlan) (hempty : p.get s.world = .empty) :
    (start s).Sound plan p s.clock.uptime where
  history := .start
  stage _ := rfl
  lock i l hl := by cases hl
  table := by
    constructor
    case issued =>
      intro i l hl
      cases hl
    case entry =>
      intro name h hfind
      change (p.get s.world).find? name = some h at hfind
      rw [hempty] at hfind
      cases hfind
    case gone =>
      intro name a _ hlast
      cases hlast

/-! ### What a run does next -/

/-- A run comes to a stage by something that happens to it. -/
theorem enter_eq {stage next : JobStage Unit} {what : LockHappening} (hstage : w.stages i = stage)
    (h : stage.happening? next = some what) (s : Session σ) :
    w.enter i next s = ⟨s, Function.update w.stages i next,
      ⟨i, w.session.clock.uptime, what⟩ :: w.events⟩ := by
  unfold enter
  rw [hstage, h]

/-- A run that asks for its lock goes where the answer of the table sends it. -/
theorem goOn_of_starting (plan : LockPlan) (hp : p.Lawful) (hstage : w.stages i = .starting) :
    let r := (p.get w.session.world).tryAcquire w.session.clock.uptime (plan.name i)
      (plan.terms i).atMost (plan.terms i).atLeast
    ∃ s', w.goOn plan (LocalLocks.provider p) i = w.enter i (.asked r.1) s' ∧
      s'.clock = w.session.clock ∧ p.get s'.world = r.2 := by
  intro r
  obtain ⟨s', hact, hclock, hworld⟩ := JobStage.exec_act_starting (plan.name i) (plan.terms i)
    (pure ()) w.session hp
  exact ⟨s', by simp only [goOn, hstage, hact, r], hclock, hworld⟩

/-- A run that is kept from its lock is skipped. -/
theorem goOn_of_taken (h : w.Sound plan p began) (hp : p.Lawful)
    (hstage : w.stages i = .starting)
    (htaken : plan.Taken w.events (plan.name i) w.session.clock.uptime) :
    ∃ s', w.goOn plan (LocalLocks.provider p) i =
        ⟨s', Function.update w.stages i (.finished .skipped),
          ⟨i, w.session.clock.uptime, .skipped⟩ :: w.events⟩ ∧
      s'.clock = w.session.clock ∧ p.get s'.world = p.get w.session.world := by
  obtain ⟨s', hgo, hclock, hworld⟩ := goOn_of_starting plan hp hstage
  obtain ⟨l, hlive⟩ := Option.isSome_iff_exists.mp ((h.table.taken_iff (plan.name i)).mp htaken)
  rw [LocalLocks.tryAcquire_eq, hlive] at hgo hworld
  exact ⟨s', hgo.trans (enter_eq hstage rfl s'), hclock, hworld⟩

/-- No entry of a lock is live from which nobody is kept. -/
theorem Sound.live?_eq_none (h : w.Sound plan p began)
    (hfree : ¬ plan.Taken w.events (plan.name i) w.session.clock.uptime) :
    (p.get w.session.world).live? w.session.clock.uptime (plan.name i) = none := by
  rw [h.table.taken_iff (plan.name i)] at hfree
  simpa using hfree

/-- A run that nobody keeps from its lock acquires it, if a clock can show until when. -/
theorem goOn_of_free (h : w.Sound plan p began) (hp : p.Lawful)
    (hstage : w.stages i = .starting)
    (hfree : ¬ plan.Taken w.events (plan.name i) w.session.clock.uptime)
    (hreaches : w.session.clock.uptime + (plan.terms i).atMost ≤ Clock.lastUptime) :
    let now := w.session.clock.uptime
    let table := p.get w.session.world
    ∃ s', w.goOn plan (LocalLocks.provider p) i =
        ⟨s', Function.update w.stages i (.working ⟨plan.name i, table.nextToken, now,
            (plan.terms i).atLeast, (plan.terms i).atMost⟩), ⟨i, now, .acquired⟩ :: w.events⟩ ∧
      s'.clock = w.session.clock ∧
      p.get s'.world = { table.insert ⟨plan.name i, table.nextToken, now + (plan.terms i).atMost⟩
        with issued := table.issued + 1 } := by
  intro now table
  obtain ⟨s', hgo, hclock, hworld⟩ := goOn_of_starting plan hp hstage
  rw [LocalLocks.tryAcquire_eq, h.live?_eq_none hfree] at hgo hworld
  dsimp only at hgo hworld
  rw [if_neg (Nat.not_lt.mpr hreaches)] at hgo hworld
  exact ⟨s', hgo.trans (enter_eq hstage rfl s'), hclock, hworld⟩

/-- It breaks off if no clock can; the table counts it all the same. -/
theorem goOn_of_beyond (h : w.Sound plan p began) (hp : p.Lawful)
    (hstage : w.stages i = .starting)
    (hfree : ¬ plan.Taken w.events (plan.name i) w.session.clock.uptime)
    (hbeyond : Clock.lastUptime < w.session.clock.uptime + (plan.terms i).atMost) :
    let table := p.get w.session.world
    ∃ s', w.goOn plan (LocalLocks.provider p) i =
        ⟨s', Function.update w.stages i (.finished .brokenOff),
          ⟨i, w.session.clock.uptime, .brokeAsking⟩ :: w.events⟩ ∧
      s'.clock = w.session.clock ∧ p.get s'.world = { table with issued := table.issued + 1 } := by
  intro table
  obtain ⟨s', hgo, hclock, hworld⟩ := goOn_of_starting plan hp hstage
  rw [LocalLocks.tryAcquire_eq, h.live?_eq_none hfree] at hgo hworld
  dsimp only at hgo hworld
  rw [if_pos hbeyond] at hgo hworld
  exact ⟨s', hgo.trans (enter_eq hstage rfl s'), hclock, hworld⟩

theorem goOn_of_working (plan : LockPlan) (p : Part σ LocalLocks)
    (hstage : w.stages i = .working lock) :
    w.goOn plan (LocalLocks.provider p) i =
      ⟨w.session, Function.update w.stages i (.worked () lock),
        ⟨i, w.session.clock.uptime, .ended⟩ :: w.events⟩ := by
  simp [goOn, enter, hstage, JobStage.act, JobStage.happening?]

/-- A run that gives its lock back goes where the answer of the table sends it. -/
theorem goOn_of_worked (plan : LockPlan) (hp : p.Lawful) (hstage : w.stages i = .worked () lock) :
    let r := (p.get w.session.world).release w.session.clock.uptime lock
    ∃ s', w.goOn plan (LocalLocks.provider p) i = w.enter i (.returned () r.1) s' ∧
      s'.clock = w.session.clock ∧ p.get s'.world = r.2 := by
  intro r
  obtain ⟨s', hact, hclock, hworld⟩ := JobStage.exec_act_worked (plan.name i) (plan.terms i)
    (pure ()) w.session hp () lock
  exact ⟨s', by simp only [goOn, hstage, hact, r], hclock, hworld⟩

theorem goOn_of_finished (plan : LockPlan) (p : Part σ LocalLocks) {r : JobRun Unit}
    (hstage : w.stages i = .finished r) : w.goOn plan (LocalLocks.provider p) i = w := by
  have hact : Act.exec (JobStage.act (LocalLocks.provider p) (plan.name i) (plan.terms i) (pure ())
      (.finished r)) w.session = (.finished r, w.session) := rfl
  simp only [goOn, enter, hstage, hact, JobStage.happening?]
  rw [← hstage, Function.update_eq_self]

/-! ### Every step keeps the invariant -/

/-- A run comes to a new stage by something that happens to it. -/
theorem Sound.happen (h : w.Sound plan p began) {what : LockHappening} {stage : JobStage Unit}
    (hclock : s.clock = w.session.clock)
    (hfollows : plan.Follows w.events ⟨i, w.session.clock.uptime, what⟩)
    (hstage : stage.Sound i (⟨i, w.session.clock.uptime, what⟩ :: eventsOf w.events i))
    (hlock : ∀ l, stage.lock? = some l →
      l.name = plan.name i ∧ l.atLeast = (plan.terms i).atLeast)
    (htable : TableSound plan w.session.clock.uptime (p.get s.world)
      (fun j => (Function.update w.stages i stage j).lock?)
      (⟨i, w.session.clock.uptime, what⟩ :: w.events)) :
    Sound plan p began ⟨s, Function.update w.stages i stage,
      ⟨i, w.session.clock.uptime, what⟩ :: w.events⟩ := by
  constructor
  case history =>
    rw [hclock]
    exact .happen h.history hfollows
  case stage =>
    intro j
    by_cases hj : j = i
    · subst hj
      simpa using hstage
    · simpa [hj, Ne.symm hj] using h.stage j
  case lock =>
    intro j l hl
    by_cases hj : j = i
    · subst hj
      exact hlock l (by simpa using hl)
    · exact h.lock j l (by simpa [hj] using hl)
  case table =>
    dsimp only
    rwa [hclock]

/-- Where a run has the same lock at its new stage, every run has. -/
theorem locks_update {stage : JobStage Unit} (h : stage.lock? = (w.stages i).lock?) :
    (fun j => (Function.update w.stages i stage j).lock?) = fun j => (w.stages j).lock? := by
  funext j
  by_cases hj : j = i
  · subst hj
    rw [Function.update_self, h]
  · rw [Function.update_of_ne hj]

/-- A run that is finished has no lock; the others have theirs. -/
theorem stages_of_update_finished (w : LocalRuns σ) (i : Nat) (r : JobRun Unit) (j : Nat)
    (k : RunLock) (hk : (Function.update w.stages i (.finished r) j).lock? = some k) :
    j ≠ i ∧ (w.stages j).lock? = some k := by
  by_cases hj : j = i
  · subst hj
    simp [JobStage.lock?] at hk
  · exact ⟨hj, by simpa [hj] using hk⟩

/-- Nothing has happened to a run that has done nothing. -/
theorem Sound.eventsOf_eq_nil (h : w.Sound plan p began) (hstage : w.stages i = .starting) :
    eventsOf w.events i = [] := by
  simpa [hstage, JobStage.Sound] using h.stage i

theorem Sound.skip (h : w.Sound plan p began) (hp : p.Lawful) (hstage : w.stages i = .starting)
    (htaken : plan.Taken w.events (plan.name i) w.session.clock.uptime) :
    (w.goOn plan (LocalLocks.provider p) i).Sound plan p began := by
  have hnew := h.eventsOf_eq_nil hstage
  obtain ⟨s', hgo, hclock, hworld⟩ := goOn_of_taken h hp hstage htaken
  rw [hgo]
  refine h.happen hclock ⟨hnew, htaken⟩ ⟨_, _, rfl, .inl rfl⟩ (by simp [JobStage.lock?]) ?_
  rw [hworld]
  exact h.table.quiet (by simp) (by simp) (fun _ => rfl) (Nat.le_refl _) fun j k hk => (stages_of_update_finished w i _ j k hk).2

theorem Sound.acquire (h : w.Sound plan p began) (hp : p.Lawful) (hstage : w.stages i = .starting)
    (hfree : ¬ plan.Taken w.events (plan.name i) w.session.clock.uptime)
    (hreaches : w.session.clock.uptime + (plan.terms i).atMost ≤ Clock.lastUptime) :
    (w.goOn plan (LocalLocks.provider p) i).Sound plan p began := by
  have hnew := h.eventsOf_eq_nil hstage
  obtain ⟨s', hgo, hclock, hworld⟩ := goOn_of_free h hp hstage hfree hreaches
  rw [hgo]
  refine h.happen hclock ⟨hnew, hfree, hreaches⟩ ?_ ?_ ?_
  · simp [JobStage.Sound, hnew]
  · simp [JobStage.lock?]
  · rw [hworld]
    refine h.table.acquire hnew ?_
    intro j l hl
    by_cases hj : j = i
    · subst hj
      simp only [Function.update_self, JobStage.lock?, Option.some.injEq] at hl
      exact .inr ⟨rfl, hl ▸ rfl⟩
    · exact .inl ⟨hj, by simpa [hj] using hl⟩

theorem Sound.breakOff (h : w.Sound plan p began) (hp : p.Lawful) (hstage : w.stages i = .starting)
    (hfree : ¬ plan.Taken w.events (plan.name i) w.session.clock.uptime)
    (hbeyond : Clock.lastUptime < w.session.clock.uptime + (plan.terms i).atMost) :
    (w.goOn plan (LocalLocks.provider p) i).Sound plan p began := by
  have hnew := h.eventsOf_eq_nil hstage
  obtain ⟨s', hgo, hclock, hworld⟩ := goOn_of_beyond h hp hstage hfree hbeyond
  rw [hgo]
  refine h.happen hclock ⟨hnew, hfree, Nat.not_le.mpr hbeyond⟩ ⟨_, _, rfl, .inr (.inl rfl)⟩
    (by simp [JobStage.lock?]) ?_
  rw [hworld]
  exact h.table.quiet (by simp) (by simp) (fun _ => rfl) (Nat.le_succ _) fun j k hk => (stages_of_update_finished w i _ j k hk).2

theorem Sound.finish (h : w.Sound plan p began) (hstage : w.stages i = .working lock) :
    (w.goOn plan (LocalLocks.provider p) i).Sound plan p began := by
  have hacquired : eventsOf w.events i = [⟨i, lock.acquiredAt, .acquired⟩] := by
    simpa [hstage, JobStage.Sound] using h.stage i
  rw [goOn_of_working plan p hstage]
  refine h.happen rfl ⟨_, hacquired⟩ ⟨_, by rw [hacquired]⟩ ?_ ?_
  · intro l hl
    exact h.lock i l (by simpa [hstage, JobStage.lock?] using hl)
  · rw [locks_update (by rw [hstage]; rfl)]
    exact h.table.quiet (by simp) (by simp) (fun _ => rfl) (Nat.le_refl _) fun _ _ hl => hl

/-- What the table must know of a run that gives its lock back. -/
theorem Sound.givesBack (h : w.Sound plan p began) (hstage : w.stages i = .worked () lock) :
    TableSound.GivesBack plan w.session.clock.uptime (fun j => (w.stages j).lock?) w.events i
      lock := by
  obtain ⟨stop, hended⟩ : ∃ stop, eventsOf w.events i =
      [⟨i, stop, .ended⟩, ⟨i, lock.acquiredAt, .acquired⟩] := by
    simpa [hstage, JobStage.Sound] using h.stage i
  have hlock : (w.stages i).lock? = some lock := by simp [hstage, JobStage.lock?]
  have hmem : ⟨i, lock.acquiredAt, .acquired⟩ ∈ w.events :=
    (List.mem_filter.mp (hended ▸ List.mem_cons_of_mem _ List.mem_cons_self)).1
  exact ⟨hlock, (h.lock i lock hlock).1, (h.lock i lock hlock).2, ⟨stop, hended⟩,
    h.history.time_le hmem⟩

/-- A run gives its lock back, unless no clock can show until when the lock must be kept. -/
theorem goOn_of_released (h : w.Sound plan p began) (hp : p.Lawful)
    (hstage : w.stages i = .worked () lock)
    (hover : ¬ plan.Overreaches w.events i lock.acquiredAt w.session.clock.uptime) :
    ∃ s', w.goOn plan (LocalLocks.provider p) i =
        ⟨s', Function.update w.stages i (.finished (.executed ())),
          ⟨i, w.session.clock.uptime, .released⟩ :: w.events⟩ ∧
      s'.clock = w.session.clock ∧
      TableSound plan w.session.clock.uptime (p.get s'.world)
        (fun j => (Function.update w.stages i (.finished (.executed ())) j).lock?)
        (⟨i, w.session.clock.uptime, .released⟩ :: w.events) := by
  obtain ⟨s', hgo, hclock, hworld⟩ := goOn_of_worked plan hp hstage
  obtain ⟨u, hrelease, htable⟩ :=
    h.table.release (h.givesBack hstage) (stages_of_update_finished w i _) hover
  rw [hrelease] at hgo hworld
  exact ⟨s', hgo.trans (enter_eq hstage rfl s'), hclock, hworld ▸ htable⟩

/-- If no clock can, the run breaks off, and the table stays as it is. -/
theorem goOn_of_overreaches (h : w.Sound plan p began) (hp : p.Lawful)
    (hstage : w.stages i = .worked () lock)
    (hover : plan.Overreaches w.events i lock.acquiredAt w.session.clock.uptime) :
    ∃ s', w.goOn plan (LocalLocks.provider p) i =
        ⟨s', Function.update w.stages i (.finished .brokenOff),
          ⟨i, w.session.clock.uptime, .brokeReleasing⟩ :: w.events⟩ ∧
      s'.clock = w.session.clock ∧ p.get s'.world = p.get w.session.world := by
  obtain ⟨s', hgo, hclock, hworld⟩ := goOn_of_worked plan hp hstage
  rw [h.table.release_of_overreaches (h.givesBack hstage) hover] at hgo hworld
  exact ⟨s', hgo.trans (enter_eq hstage rfl s'), hclock, hworld⟩

theorem Sound.release (h : w.Sound plan p began) (hp : p.Lawful)
    (hstage : w.stages i = .worked () lock) :
    (w.goOn plan (LocalLocks.provider p) i).Sound plan p began := by
  obtain ⟨stop, hended⟩ := (h.givesBack hstage).events
  by_cases hover : plan.Overreaches w.events i lock.acquiredAt w.session.clock.uptime
  · obtain ⟨s', hgo, hclock, hworld⟩ := goOn_of_overreaches h hp hstage hover
    rw [hgo]
    refine h.happen hclock ⟨_, _, hended, hover⟩ ⟨_, _, rfl, .inr (.inr (.inr rfl))⟩
      (by simp [JobStage.lock?]) ?_
    rw [hworld]
    exact h.table.quiet (by simp) (by simp) (fun _ => rfl) (Nat.le_refl _)
      fun j k hk => (stages_of_update_finished w i _ j k hk).2
  · obtain ⟨s', hgo, hclock, htable⟩ := goOn_of_released h hp hstage hover
    rw [hgo]
    exact h.happen hclock ⟨_, _, hended, hover⟩ ⟨_, _, rfl, .inr (.inr (.inl rfl))⟩
      (by simp [JobStage.lock?]) htable

theorem Sound.goOn (h : w.Sound plan p began) (hp : p.Lawful) (i : Nat) :
    (w.goOn plan (LocalLocks.provider p) i).Sound plan p began := by
  cases hstage : w.stages i with
  | starting =>
      by_cases htaken : plan.Taken w.events (plan.name i) w.session.clock.uptime
      · exact h.skip hp hstage htaken
      · obtain hbeyond | hreaches := Nat.lt_or_ge Clock.lastUptime
          (w.session.clock.uptime + (plan.terms i).atMost)
        · exact h.breakOff hp hstage htaken hbeyond
        · exact h.acquire hp hstage htaken hreaches
  | working lock => exact h.finish hstage
  | worked a lock => exact h.release hp hstage
  | finished r => rwa [goOn_of_finished plan p hstage]

/-- **Every step keeps the invariant.** -/
theorem Sound.step (h : w.Sound plan p began) (hp : p.Lawful) (hstep : LocalStep plan p w w') :
    w'.Sound plan p began := by
  cases hstep with
  | goOn i => exact h.goOn hp i
  | other s htable htime =>
      constructor
      case history => exact .pass h.history htime
      case stage => exact h.stage
      case lock => exact h.lock
      case table =>
        dsimp only
        rw [htable]
        exact h.table.pass htime

theorem Sound.leads (h : w.Sound plan p began) (hp : p.Lawful) (hleads : Leads plan p w w') :
    w'.Sound plan p began := by
  induction hleads with
  | refl => exact h
  | tail _ hstep ih => exact ih.step hp hstep

/-! ### Runs and histories -/

/-- **What happens is a history.** -/
theorem history_of_leads (plan : LockPlan) (hp : p.Lawful) (hempty : p.get s.world = .empty)
    (hleads : Leads plan p (start s) w) :
    LockHistory plan s.clock.uptime w.session.clock.uptime w.events :=
  ((sound_start plan hempty).leads hp hleads).history

/-- A run to which something may happen does just that next. -/
theorem Sound.goOn_of_follows (h : w.Sound plan p began) (hp : p.Lawful) {e : LockEvent}
    (htime : e.time = w.session.clock.uptime) (hfollows : plan.Follows w.events e) :
    (w.goOn plan (LocalLocks.provider p) e.run).session.clock = w.session.clock ∧
      (w.goOn plan (LocalLocks.provider p) e.run).events = e :: w.events := by
  obtain ⟨i, time, what⟩ := e
  obtain rfl : time = w.session.clock.uptime := htime
  have hevents := h.stage i
  cases what with
  | acquired =>
      obtain ⟨hnew, hfree, hreaches⟩ := hfollows
      have hstage := JobStage.eq_starting (hnew ▸ hevents)
      obtain ⟨s', hgo, hclock, -⟩ := goOn_of_free h hp hstage hfree hreaches
      exact ⟨hgo ▸ hclock, by rw [hgo]⟩
  | skipped =>
      obtain ⟨hnew, htaken⟩ := hfollows
      have hstage := JobStage.eq_starting (hnew ▸ hevents)
      obtain ⟨s', hgo, hclock, -⟩ := goOn_of_taken h hp hstage htaken
      exact ⟨hgo ▸ hclock, by rw [hgo]⟩
  | brokeAsking =>
      obtain ⟨hnew, hfree, hbeyond⟩ := hfollows
      have hstage := JobStage.eq_starting (hnew ▸ hevents)
      obtain ⟨s', hgo, hclock, -⟩ := goOn_of_beyond h hp hstage hfree (Nat.not_le.mp hbeyond)
      exact ⟨hgo ▸ hclock, by rw [hgo]⟩
  | ended =>
      obtain ⟨start, hacquired⟩ := hfollows
      obtain ⟨l, hstage⟩ := JobStage.exists_working (hacquired ▸ hevents)
      rw [goOn_of_working plan p hstage]
      exact ⟨rfl, rfl⟩
  | released =>
      obtain ⟨start, stop, hended, hover⟩ := hfollows
      obtain ⟨l, hstage, rfl⟩ := JobStage.exists_worked (hended ▸ hevents)
      obtain ⟨s', hgo, hclock, -⟩ := goOn_of_released h hp hstage hover
      exact ⟨hgo ▸ hclock, by rw [hgo]⟩
  | brokeReleasing =>
      obtain ⟨start, stop, hended, hover⟩ := hfollows
      obtain ⟨l, hstage, rfl⟩ := JobStage.exists_worked (hended ▸ hevents)
      obtain ⟨s', hgo, hclock, -⟩ := goOn_of_overreaches h hp hstage hover
      exact ⟨hgo ▸ hclock, by rw [hgo]⟩

/-- **Every history can happen.** -/
theorem leads_of_history (hp : p.Lawful) (hempty : p.get s.world = .empty) {now : Nat}
    {es : List LockEvent} (h : LockHistory plan s.clock.uptime now es) :
    ∃ w, Leads plan p (start s) w ∧ w.session.clock.uptime = now ∧ w.events = es := by
  induction h with
  | start => exact ⟨start s, .refl, rfl, rfl⟩
  | @pass now later es _ hle ih =>
      obtain ⟨w, hleads, rfl, hes⟩ := ih
      let waited : Session σ := { w.session with clock := { w.session.clock with uptime := later } }
      exact ⟨{ w with session := waited }, hleads.tail (.other waited rfl hle), rfl, hes⟩
  | @happen es e _ hfollows ih =>
      obtain ⟨w, hleads, htime, rfl⟩ := ih
      have hsound := (sound_start plan hempty).leads hp hleads
      obtain ⟨hclock, hevents⟩ := hsound.goOn_of_follows hp htime.symm hfollows
      exact ⟨_, hleads.tail (.goOn e.run), by rw [hclock, htime], hevents⟩

/-! ### A run without company -/

/-- A job that leaves the table of the locks alone. -/
def Aside (p : Part σ LocalLocks) (job : Act σ Unit) : Prop :=
  ∀ s, p.get (Act.exec job s).2.world = p.get s.world ∧
    s.clock.uptime ≤ (Act.exec job s).2.clock.uptime

theorem goOn_self (plan : LockPlan) (locks : RunLocks σ) (w : LocalRuns σ) (i : Nat) :
    ((w.goOn plan locks i).stages i, (w.goOn plan locks i).session) =
      Act.exec ((w.stages i).act locks (plan.name i) (plan.terms i) (pure ())) w.session := by
  change (Function.update w.stages i _ i, _) = _
  rw [Function.update_self]
  rfl

/-- A run goes on, and nobody else does. -/
theorem leads_act (plan : LockPlan) {job : Act σ Unit} (hjob : Aside p job) (i : Nat)
    (w : LocalRuns σ) : ∃ w', Leads plan p w w' ∧ (w'.stages i, w'.session) =
      Act.exec ((w.stages i).act (LocalLocks.provider p) (plan.name i) (plan.terms i) job)
        w.session := by
  cases hstage : w.stages i with
  | working lock =>
      -- The job does its work before its end is taken notice of.
      let s' := (Act.exec job w.session).2
      have hwork : LocalStep plan p w { w with session := s' } :=
        .other s' (hjob w.session).1 (hjob w.session).2
      refine ⟨_, (Relation.ReflTransGen.single hwork).tail (.goOn i), ?_⟩
      rw [goOn_self]
      dsimp only
      rw [hstage]
      rfl
  | starting | worked | finished =>
      refine ⟨_, .single (.goOn i), ?_⟩
      rw [goOn_self, hstage]
      rfl

theorem leads_runLocked (plan : LockPlan) {job : Act σ Unit} (hjob : Aside p job)
    (hstage : w.stages i = .starting) :
    let run := (LocalLocks.provider p).runLocked (plan.name i) (plan.terms i) job
    ∃ w', Leads plan p w w' ∧ w'.stages i = .finished (Act.exec run w.session).1 ∧
      w'.session = (Act.exec run w.session).2 := by
  intro run
  obtain ⟨w₁, hleads₁, hact₁⟩ := leads_act plan hjob i w
  obtain ⟨w₂, hleads₂, hact₂⟩ := leads_act plan hjob i w₁
  obtain ⟨w₃, hleads₃, hact₃⟩ := leads_act plan hjob i w₂
  have hrun := JobStage.exec_act_thrice (LocalLocks.provider p) (plan.name i) (plan.terms i) job
    w.session
  rw [Act.exec_bind, Act.exec_bind, ← hstage, ← hact₁, ← hact₂, ← hact₃] at hrun
  exact ⟨w₃, (hleads₁.trans hleads₂).trans hleads₃, Prod.mk.inj hrun⟩

/-- **When a locked job runs and when it is skipped.** However the runs under the locks of a process
are interleaved, and however long their jobs take: the locks do what they are for, and what happens
under some names could have happened in the same way if there were no others. The steps of a run, one
after the other, are the program; with a job that leaves the table of the locks alone, the program
without company is one of these runs. -/
theorem governs_of_leads (plan : LockPlan) (hp : p.Lawful) (hempty : p.get s.world = .empty)
    (hleads : Leads plan p (start s) w) :
    plan.Governs w.events ∧
    (∀ names : String → Bool, ∃ w', Leads plan p (start s) w' ∧
      w'.session.clock.uptime = w.session.clock.uptime ∧
      w'.events = plan.under names w.events) ∧
    (∀ (i : Nat) (α : Type) (job : Act σ α) (s₁ : Session σ),
      let act := JobStage.act (LocalLocks.provider p) (plan.name i) (plan.terms i) job
      let run := (LocalLocks.provider p).runLocked (plan.name i) (plan.terms i) job
      Act.exec (act .starting >>= act >>= act) s₁ =
        (.finished (Act.exec run s₁).1, (Act.exec run s₁).2)) ∧
    ∀ (i : Nat) (job : Act σ Unit) (w₁ : LocalRuns σ), Aside p job → w₁.stages i = .starting →
      let run := (LocalLocks.provider p).runLocked (plan.name i) (plan.terms i) job
      ∃ w₂, Leads plan p w₁ w₂ ∧ w₂.stages i = .finished (Act.exec run w₁.session).1 ∧
        w₂.session = (Act.exec run w₁.session).2 := by
  have hhistory := history_of_leads plan hp hempty hleads
  refine ⟨hhistory.governs, fun names => leads_of_history hp hempty (hhistory.under names),
    fun i _ job => ?_, fun i job w₁ hjob hstage => leads_runLocked plan hjob hstage⟩
  exact JobStage.exec_act_thrice _ (plan.name i) (plan.terms i) job

/-! ### Some runs, step by step -/

/-- A run goes on, or time passes. -/
inductive Move where
  | goOn (i : Nat)
  | wait (nanos : Nat)

def move (plan : LockPlan) (p : Part σ LocalLocks) (w : LocalRuns σ) : Move → LocalRuns σ
  | .goOn i => w.goOn plan (LocalLocks.provider p) i
  | .wait nanos => { w with session := (Act.exec (Act.pass nanos) w.session).2 }

theorem leads_moves (plan : LockPlan) (p : Part σ LocalLocks) (moves : List Move)
    (w : LocalRuns σ) : Leads plan p w (moves.foldl (move plan p) w) := by
  induction moves generalizing w with
  | nil => exact .refl
  | cons m rest ih =>
      refine .head ?_ (ih _)
      cases m with
      | goOn i => exact .goOn i
      | wait nanos => exact .other _ rfl (by simp [Clock.uptime_advance])

/-- Six runs, all but one of them under the same lock, which each may hold for ten nanoseconds and
which is kept for four. -/
def sixRuns : LockPlan where
  name i := if i = 3 then "yearly" else "daily"
  terms _ := ⟨10, 4⟩

/-- The first run overruns, and another takes its lock over; what the first one then gives back is not
its own any more. -/
def takeover : List Move := [
  .goOn 0, .goOn 1, .goOn 3, .wait 10, .goOn 2, .goOn 0, .goOn 0, .goOn 4, .goOn 3, .wait 1,
  .goOn 2, .goOn 2, .wait 3, .goOn 5]

theorem governs_takeover :
    let w := takeover.foldl (move sixRuns ⟨id, fun t _ => t⟩) (start ⟨.empty, ⟨⟨0, 0⟩, 0⟩, []⟩)
    w.events.map (fun e => (e.run, e.what)) = [(5, .acquired), (2, .released), (2, .ended),
      (3, .ended), (4, .skipped), (0, .released), (0, .ended), (2, .acquired), (3, .acquired),
      (1, .skipped), (0, .acquired)] ∧
    sixRuns.Governs w.events := by
  intro w
  refine ⟨by decide +kernel, ?_⟩
  exact (governs_of_leads sixRuns (p := ⟨id, fun t _ => t⟩) (fun _ _ => rfl) rfl
    (leads_moves _ _ takeover _)).1

/-- Runs under one lock, which each may hold for some time. -/
def oneName (atMost : Nat) : LockPlan := ⟨fun _ => "daily", fun _ => ⟨atMost, 0⟩⟩

/-- Of those who ask for the lock at one time, at which it is free, exactly one gets it. -/
def GivenOnce (atMost : Nat) : Prop :=
  ∀ w, Leads (oneName atMost) ⟨id, fun t _ => t⟩ (start ⟨.empty, ⟨⟨0, 0⟩, 0⟩, []⟩) w →
    w.session.clock.uptime = 0 → (∃ e ∈ w.events, (oneName atMost).attempts "daily" e) →
    (w.events.filter ((oneName atMost).takes "daily")).length = 1

/-- A lock that may be held for no time at all is given to everybody who asks for it, and one that may
be held for longer than a clock can show, here as many seconds as a number of 64 bits can count, to
nobody. -/
theorem not_once_of_atMost :
    ¬ GivenOnce 0 ∧ ¬ GivenOnce ((UInt64.size - 1) * 1000000000) := by
  -- Two runs ask for the lock, one right after the other.
  have hleads (atMost : Nat) := leads_moves (oneName atMost) ⟨id, fun t _ => t⟩ [.goOn 0, .goOn 1]
    (start ⟨.empty, ⟨⟨0, 0⟩, 0⟩, []⟩)
  constructor
  · intro h
    exact absurd (h _ (hleads _) (by decide +kernel) (by decide +kernel)) (by decide +kernel)
  · intro h
    exact absurd (h _ (hleads _) (by decide +kernel) (by decide +kernel)) (by decide +kernel)

end LocalRuns

end DailyBars
