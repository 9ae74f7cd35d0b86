import DailyBars.Broker.Pacing
import DailyBars.Proofs.Broker.PaceSlots
import DailyBars.Proofs.Session
import Mathlib.Logic.Function.Basic
import Mathlib.Logic.Relation

/-!
# Requests side by side

Any number of calls share a pacer. A call gets the lock of the pacer, reads the clock, reserves its slot
and gives the lock back, and then it waits; in between the other calls go on and time passes. The steps
one after the other are the program (`PaceStage.exec_act`). The lock is what keeps the times that are
read in order, so that the slots are those of requests made one after the other at these times, whatever
the calls do in between (`PacedCalls.paced_of_leads`).
-/

namespace DailyBars

variable {σ : Type}

/-- Where a call for a slot is. -/
inductive PaceStage where
  /-- It has not been made. -/
  | idle
  /-- It waits for the lock of the pacer. -/
  | calling
  /-- It has the lock. -/
  | holding
  /-- It has the lock, and has read the clock. -/
  | reading (now : Nat)
  /-- It has given the lock back, and waits for its slot. -/
  | sleeping (slot : Nat)
  /-- It was let through. -/
  | through
  deriving DecidableEq

namespace PaceStage

/-- Does what comes next. -/
def act (p : Part σ Pacing) : PaceStage → Act σ PaceStage
  | idle => return calling
  | calling => return holding
  | holding => return reading (← Act.uptime)
  | reading now => return sleeping (← Act.onPart p (·.reserve now))
  | sleeping slot => do
    Act.sleepUntil slot
    return through
  | through => return through

/-- **The stages are the program.** -/
theorem exec_act (p : Part σ Pacing) (s : Session σ) :
    Act.exec (act p idle >>= act p >>= act p >>= act p >>= act p) s =
      (through, (Act.exec (Pacing.acquire p) s).2) := by
  unfold Pacing.acquire
  simp only [Act.exec_bind, act, Act.exec_pure, Act.exec_uptime, Act.exec_onPart]

end PaceStage

/-! ### Waiting -/

theorem le_nextMillisecond (t : Nat) : t ≤ nextMillisecond t := by
  unfold nextMillisecond
  omega

/-- Whoever waits for an uptime goes on at once, or with the first tick of the timer after it. -/
theorem Act.exec_sleepUntil (time : Nat) (s : Session σ) :
    (Act.exec (Act.sleepUntil time) s).2 =
      if s.clock.uptime < time then
        { s with clock := s.clock.advance (nextMillisecond time - s.clock.uptime) }
      else s := by
  unfold Act.sleepUntil
  rw [Act.exec_bind, Act.exec_uptime]
  split <;> rfl

theorem Act.world_sleepUntil (time : Nat) (s : Session σ) :
    (Act.exec (Act.sleepUntil time) s).2.world = s.world := by
  rw [Act.exec_sleepUntil]
  split <;> rfl

theorem Act.uptime_sleepUntil (time : Nat) (s : Session σ) :
    (Act.exec (Act.sleepUntil time) s).2.clock.uptime =
      if s.clock.uptime < time then nextMillisecond time else s.clock.uptime := by
  have hle := le_nextMillisecond time
  rw [Act.exec_sleepUntil]
  by_cases h : s.clock.uptime < time
  · rw [if_pos h, if_pos h, Clock.uptime_advance]
    omega
  · rw [if_neg h, if_neg h]

/-- Nobody wakes too early. -/
theorem Act.le_uptime_sleepUntil (time : Nat) (s : Session σ) :
    max time s.clock.uptime ≤ (Act.exec (Act.sleepUntil time) s).2.clock.uptime := by
  have hle := le_nextMillisecond time
  rw [Act.uptime_sleepUntil]
  split <;> omega

/-- A request reserves its slot and waits for it. -/
theorem Pacing.exec_acquire (p : Part σ Pacing) (s : Session σ) :
    let r := (p.get s.world).reserve s.clock.uptime
    (Act.exec (Pacing.acquire p) s).2 =
      (Act.exec (Act.sleepUntil r.1) { s with world := p.set r.2 s.world }).2 := rfl

/-! ### The calls -/

/-- What a call was granted: the slot, and the time at which it asked for it. -/
structure PaceGrant where
  call : Nat
  time : Nat
  slot : Nat
  deriving DecidableEq

/-- Calls that share a pacer, by their numbers. -/
structure PacedCalls (σ : Type) where
  session : Session σ
  stages : Nat → PaceStage
  /-- The call that has the lock. -/
  holder : Option Nat
  /-- The calls that got the lock, in this order. -/
  line : List Nat
  /-- All that was granted, in this order. -/
  grants : List PaceGrant
  /-- When a call was made. -/
  called : Nat → Option Nat
  /-- When a call was let through. -/
  passed : Nat → Option Nat

namespace PacedCalls

/-- Calls that are still to be made. -/
def start (s : Session σ) : PacedCalls σ :=
  ⟨s, fun _ => .idle, none, [], [], fun _ => none, fun _ => none⟩

/-- The times at which slots were asked for. -/
def times (w : PacedCalls σ) : List Nat := w.grants.map (·.time)

/-- The slots. -/
def slots (w : PacedCalls σ) : List Nat := w.grants.map (·.slot)

/-- Whether a call can go on: there is one lock. -/
def Ready (w : PacedCalls σ) (i : Nat) : Prop :=
  match w.stages i with
  | .calling => w.holder = none
  | .through => False
  | .idle | .holding | .reading _ | .sleeping _ => True

instance (w : PacedCalls σ) (i : Nat) : Decidable (w.Ready i) := by
  unfold Ready
  split <;> infer_instance

/-- A call does what comes next. -/
def goOn (p : Part σ Pacing) (w : PacedCalls σ) (i : Nat) : PacedCalls σ :=
  let r := Act.exec ((w.stages i).act p) w.session
  let next := { w with session := r.2, stages := Function.update w.stages i r.1 }
  match w.stages i, r.1 with
  | .idle, _ => { next with called := Function.update w.called i (some w.session.clock.uptime) }
  | .calling, _ => { next with holder := some i, line := w.line ++ [i] }
  | .reading now, .sleeping slot =>
    { next with holder := none, grants := w.grants ++ [⟨i, now, slot⟩] }
  | .sleeping _, _ => { next with passed := Function.update w.passed i (some r.2.clock.uptime) }
  | _, _ => next

end PacedCalls

/-- One step of the calls. -/
inductive PaceStep (p : Part σ Pacing) (w : PacedCalls σ) : PacedCalls σ → Prop
  | goOn (i : Nat) (hready : w.Ready i) : PaceStep p w (w.goOn p i)
  /-- Anything that leaves the pacer alone. -/
  | other (s : Session σ) (hpacing : p.get s.world = p.get w.session.world)
      (htime : w.session.clock.uptime ≤ s.clock.uptime) : PaceStep p w { w with session := s }

/-- Calls to which others come. -/
abbrev PacedCalls.Leads (p : Part σ Pacing) : PacedCalls σ → PacedCalls σ → Prop :=
  Relation.ReflTransGen (PaceStep p)

namespace PacedCalls

variable {p : Part σ Pacing} {w w' : PacedCalls σ} {first : Pacing} {i now slot : Nat}

/-! ### What a call does next -/

theorem goOn_of_idle (p : Part σ Pacing) (h : w.stages i = .idle) : w.goOn p i =
    { w with
      stages := Function.update w.stages i .calling
      called := Function.update w.called i (some w.session.clock.uptime) } := by
  simp only [goOn, h, PaceStage.act, Act.exec_pure]

theorem goOn_of_calling (p : Part σ Pacing) (h : w.stages i = .calling) : w.goOn p i =
    { w with
      stages := Function.update w.stages i .holding
      holder := some i
      line := w.line ++ [i] } := by
  simp only [goOn, h, PaceStage.act, Act.exec_pure]

theorem goOn_of_holding (p : Part σ Pacing) (h : w.stages i = .holding) : w.goOn p i =
    { w with stages := Function.update w.stages i (.reading w.session.clock.uptime) } := by
  simp only [goOn, h, PaceStage.act, Act.exec_bind, Act.exec_uptime, Act.exec_pure]

theorem goOn_of_reading (p : Part σ Pacing) (h : w.stages i = .reading now) :
    let r := (p.get w.session.world).reserve now
    w.goOn p i =
      { w with
        session := { w.session with world := p.set r.2 w.session.world }
        stages := Function.update w.stages i (.sleeping r.1)
        holder := none
        grants := w.grants ++ [⟨i, now, r.1⟩] } := by
  simp only [goOn, h, PaceStage.act, Act.exec_bind, Act.exec_onPart, Act.exec_pure]

theorem goOn_of_sleeping (p : Part σ Pacing) (h : w.stages i = .sleeping slot) :
    let woken := (Act.exec (Act.sleepUntil slot) w.session).2
    w.goOn p i =
      { w with
        session := woken
        stages := Function.update w.stages i .through
        passed := Function.update w.passed i (some woken.clock.uptime) } := by
  simp only [goOn, h, PaceStage.act, Act.exec_bind, Act.exec_pure]

/-! ### The invariant -/

/-- What holds of a call at a stage. -/
def StageSound (first : Pacing) (w : PacedCalls σ) (i : Nat) : PaceStage → Prop
  | .idle => i ∉ w.line
  | .calling => i ∉ w.line ∧ ∃ t ≤ w.session.clock.uptime, w.called i = some t
  | .holding => w.holder = some i ∧ ∃ t ≤ w.session.clock.uptime, w.called i = some t
  | .reading now => w.holder = some i ∧ (∃ t ≤ now, w.called i = some t) ∧
      first.nextSlot ≤ now ∧ now ≤ w.session.clock.uptime ∧ ∀ t ∈ w.times, t ≤ now
  | .sleeping slot => ∃ g ∈ w.grants, g.call = i ∧ g.slot = slot
  | .through => True

/-- What holds of the calls at any time. -/
structure Sound (p : Part σ Pacing) (first : Pacing) (w : PacedCalls σ) : Prop where
  began : first.nextSlot ≤ w.session.clock.uptime
  pacing : p.get w.session.world = first.after w.times
  slots : w.slots = first.slots w.times
  ordered : w.times.Pairwise (· ≤ ·)
  timely : ∀ t ∈ w.times, first.nextSlot ≤ t ∧ t ≤ w.session.clock.uptime
  line : w.line = w.grants.map (·.call) ++ w.holder.toList
  nodup : w.line.Nodup
  called : ∀ g ∈ w.grants, ∃ t ≤ g.time, w.called g.call = some t
  passed : ∀ i u, w.passed i = some u → ∃ g ∈ w.grants, g.call = i ∧ g.slot ≤ u
  stage : ∀ i, StageSound first w i (w.stages i)

theorem sound_start {s : Session σ} (hpacing : p.get s.world = first)
    (hbegan : first.nextSlot ≤ s.clock.uptime) : (start s).Sound p first where
  began := hbegan
  pacing := hpacing
  slots := rfl
  ordered := .nil
  timely t ht := by cases ht
  line := rfl
  nodup := .nil
  called g hg := by cases hg
  passed i u hu := by cases hu
  stage i := List.not_mem_nil

/-! ### Every step keeps the invariant -/

variable {stage : PaceStage}

/-- What holds of a call goes on to hold of it while others go on. -/
theorem StageSound.mono (h : StageSound first w i stage) (hline : i ∉ w.line → i ∉ w'.line)
    (hholder : w.holder = some i → w'.holder = some i ∧ w'.times = w.times)
    (hgrants : ∀ g ∈ w.grants, g ∈ w'.grants) (hcalled : w'.called i = w.called i)
    (htime : w.session.clock.uptime ≤ w'.session.clock.uptime) : StageSound first w' i stage := by
  cases stage with
  | idle => exact hline h
  | calling =>
      obtain ⟨hout, t, ht, hcall⟩ := h
      exact ⟨hline hout, t, Nat.le_trans ht htime, hcalled.trans hcall⟩
  | holding =>
      obtain ⟨hheld, t, ht, hcall⟩ := h
      exact ⟨(hholder hheld).1, t, Nat.le_trans ht htime, hcalled.trans hcall⟩
  | reading now =>
      obtain ⟨hheld, ⟨t, ht, hcall⟩, hbegan, hnow, hlast⟩ := h
      refine ⟨(hholder hheld).1, ⟨t, ht, hcalled.trans hcall⟩, hbegan, Nat.le_trans hnow htime, ?_⟩
      rw [(hholder hheld).2]
      exact hlast
  | sleeping slot =>
      obtain ⟨g, hg, hcall⟩ := h
      exact ⟨g, hgrants g hg, hcall⟩
  | through => trivial

/-- One call comes to a new stage. -/
theorem stageSound_update (hi : StageSound first w' i stage)
    (hothers : ∀ j, j ≠ i → StageSound first w' j (w.stages j)) (j : Nat) :
    StageSound first w' j (Function.update w.stages i stage j) := by
  by_cases hj : j = i
  · subst hj
    rwa [Function.update_self]
  · rw [Function.update_of_ne hj]
    exact hothers j hj

theorem Sound.call (h : w.Sound p first) (hstage : w.stages i = .idle) :
    (w.goOn p i).Sound p first := by
  have hout : i ∉ w.line := by simpa [hstage, StageSound] using h.stage i
  rw [goOn_of_idle p hstage]
  refine { h with called := ?called, stage := ?stage }
  case called =>
    intro g hg
    have hin : g.call ∈ w.line := by
      rw [h.line]
      exact List.mem_append_left _ (List.mem_map_of_mem hg)
    have hne : g.call ≠ i := fun heq => hout (heq ▸ hin)
    obtain ⟨t, ht, hcall⟩ := h.called g hg
    exact ⟨t, ht, (Function.update_of_ne hne ..).trans hcall⟩
  case stage =>
    refine stageSound_update ⟨hout, _, Nat.le_refl _, Function.update_self ..⟩ fun j hj => ?_
    exact (h.stage j).mono id (fun hheld => ⟨hheld, rfl⟩) (fun _ hg => hg)
      (Function.update_of_ne hj ..) (Nat.le_refl _)

theorem Sound.lock (h : w.Sound p first) (hstage : w.stages i = .calling)
    (hfree : w.holder = none) : (w.goOn p i).Sound p first := by
  obtain ⟨hout, hcall⟩ : StageSound first w i .calling := hstage ▸ h.stage i
  rw [goOn_of_calling p hstage]
  refine { h with line := ?line, nodup := ?nodup, stage := ?stage }
  case line =>
    have hline := h.line
    rw [hfree] at hline
    simp [hline]
  case nodup =>
    rw [List.nodup_append]
    refine ⟨h.nodup, List.nodup_singleton i, ?_⟩
    rintro a ha b hb rfl
    exact hout (List.mem_singleton.mp hb ▸ ha)
  case stage =>
    refine stageSound_update ⟨rfl, hcall⟩ fun j hj => ?_
    refine (h.stage j).mono (fun hj' => ?_) (fun hheld => ?_) (fun _ hg => hg) rfl (Nat.le_refl _)
    · simp [hj', hj]
    · rw [hfree] at hheld
      cases hheld

theorem Sound.read (h : w.Sound p first) (hstage : w.stages i = .holding) :
    (w.goOn p i).Sound p first := by
  obtain ⟨hheld, hcall⟩ : StageSound first w i .holding := hstage ▸ h.stage i
  rw [goOn_of_holding p hstage]
  refine { h with stage := ?stage }
  case stage =>
    have hlast : ∀ t ∈ w.times, t ≤ w.session.clock.uptime := fun t ht => (h.timely t ht).2
    refine stageSound_update ⟨hheld, hcall, h.began, Nat.le_refl _, hlast⟩ fun j _ => ?_
    exact (h.stage j).mono id (fun hheld => ⟨hheld, rfl⟩) (fun _ hg => hg) rfl (Nat.le_refl _)

theorem Sound.reserve (h : w.Sound p first) (hp : p.Lawful) (hstage : w.stages i = .reading now) :
    (w.goOn p i).Sound p first := by
  obtain ⟨hheld, hcall, hbegan, hnow, hlast⟩ : StageSound first w i (.reading now) :=
    hstage ▸ h.stage i
  have hslot : (p.get w.session.world).reserve now = (first.after w.times).reserve now := by
    rw [h.pacing]
  rw [goOn_of_reading p hstage]
  dsimp only
  rw [hslot]
  refine { h with pacing := ?pacing, slots := ?slots, ordered := ?ordered, timely := ?timely, line := ?line, called := ?called, passed := ?passed, stage := ?stage }
  case pacing =>
    simp only [times, List.map_append, List.map_cons, List.map_nil]
    rw [Pacing.after_concat]
    exact hp _ _
  case slots =>
    simp only [PacedCalls.slots, times, List.map_append, List.map_cons, List.map_nil]
    rw [Pacing.slots_concat]
    exact congrArg (· ++ _) h.slots
  case ordered =>
    simp only [times, List.map_append, List.map_cons, List.map_nil]
    rw [List.pairwise_append]
    refine ⟨h.ordered, List.pairwise_singleton .., fun a ha b hb => ?_⟩
    rw [List.mem_singleton.mp hb]
    exact hlast a ha
  case timely =>
    intro t ht
    simp only [times, List.map_append, List.map_cons, List.map_nil, List.mem_append,
      List.mem_singleton] at ht
    rcases ht with ht | rfl
    · exact h.timely t ht
    · exact ⟨hbegan, hnow⟩
  case line =>
    have hline := h.line
    rw [hheld] at hline
    simp [hline]
  case called =>
    intro g hg
    rcases List.mem_append.mp hg with hg | hg
    · exact h.called g hg
    · rw [List.mem_singleton.mp hg]
      exact hcall
  case passed =>
    intro j u hu
    obtain ⟨g, hg, hpass⟩ := h.passed j u hu
    exact ⟨g, List.mem_append_left _ hg, hpass⟩
  case stage =>
    refine stageSound_update ⟨_, List.mem_append_right _ List.mem_cons_self, rfl, rfl⟩ fun j hj => ?_
    refine (h.stage j).mono id (fun hheld' => ?_) (fun _ hg => List.mem_append_left _ hg) rfl
      (Nat.le_refl _)
    -- Nobody else has the lock, so nobody else can have read the clock.
    exact absurd (Option.some.inj (hheld'.symm.trans hheld)) hj

/-- The clock goes on, and the pacer is left alone. -/
theorem Sound.wait (h : w.Sound p first) {s : Session σ}
    (hpacing : p.get s.world = p.get w.session.world)
    (htime : w.session.clock.uptime ≤ s.clock.uptime) :
    Sound p first { w with session := s } := by
  refine { h with began := ?began, pacing := ?pacing, timely := ?timely, stage := ?stage }
  case began => exact Nat.le_trans h.began htime
  case pacing => exact hpacing.trans h.pacing
  case timely => exact fun t ht => ⟨(h.timely t ht).1, Nat.le_trans (h.timely t ht).2 htime⟩
  case stage =>
    exact fun j => (h.stage j).mono id (fun hheld => ⟨hheld, rfl⟩) (fun _ hg => hg) rfl htime

theorem Sound.wake (h : w.Sound p first) (hstage : w.stages i = .sleeping slot) :
    (w.goOn p i).Sound p first := by
  obtain ⟨g, hg, hcall, hslot⟩ : StageSound first w i (.sleeping slot) := hstage ▸ h.stage i
  rw [goOn_of_sleeping p hstage]
  have hend := Act.le_uptime_sleepUntil slot w.session
  have hwaited := h.wait (congrArg p.get (Act.world_sleepUntil slot w.session))
    (Nat.le_trans (Nat.le_max_right ..) hend)
  refine { hwaited with passed := ?passed, stage := ?stage }
  case passed =>
    intro j u hu
    dsimp only at hu
    by_cases hj : j = i
    · subst hj
      rw [Function.update_self] at hu
      cases hu
      refine ⟨g, hg, hcall, ?_⟩
      rw [hslot]
      exact Nat.le_trans (Nat.le_max_left ..) hend
    · rw [Function.update_of_ne hj] at hu
      exact h.passed j u hu
  case stage =>
    refine stageSound_update trivial fun j _ => ?_
    exact (hwaited.stage j).mono id (fun hheld => ⟨hheld, rfl⟩) (fun _ hg => hg) rfl (Nat.le_refl _)

/-- **Every step keeps the invariant.** -/
theorem Sound.step (h : w.Sound p first) (hp : p.Lawful) (hstep : PaceStep p w w') :
    w'.Sound p first := by
  cases hstep with
  | goOn i hready =>
      cases hstage : w.stages i with
      | idle => exact h.call hstage
      | calling => exact h.lock hstage (by simpa [Ready, hstage] using hready)
      | holding => exact h.read hstage
      | reading now => exact h.reserve hp hstage
      | sleeping slot => exact h.wake hstage
      | through =>
          unfold Ready at hready
          rw [hstage] at hready
          exact hready.elim
  | other s hpacing htime => exact h.wait hpacing htime

theorem Sound.leads (h : w.Sound p first) (hp : p.Lawful) (hleads : Leads p w w') :
    w'.Sound p first := by
  induction hleads with
  | refl => exact h
  | tail _ hstep ih => exact ih.step hp hstep

/-! ### What the slots are like -/

/-- What a pacer promises the calls that share it. -/
structure Paced (w : PacedCalls σ) (interval : Nat) : Prop where
  /-- Slots are granted in the order in which the calls get the lock, -/
  line : w.line = w.grants.map (·.call) ++ w.holder.toList
  /-- one to a call; -/
  nodup : w.line.Nodup
  /-- the clock is read in this order as well, -/
  ordered : w.times.Pairwise (· ≤ ·)
  /-- and not before the call was made. -/
  called : ∀ g ∈ w.grants, ∃ t ≤ g.time, w.called g.call = some t
  /-- A slot is as early as the requests so far allow. -/
  slot : ∀ n (h : n < w.grants.length), w.grants[n].slot = Pacing.due interval w.times n
  /-- Slots are an interval apart, from each of them on: what was not used before is lost. -/
  apart : ∀ m n (_ : m ≤ n) (h : n < w.grants.length),
    w.grants[m].slot + (n - m) * interval ≤ w.grants[n].slot
  /-- Where the interval is over, the slot is now. -/
  prompt : ∀ n (h : n + 1 < w.grants.length), w.grants[n].slot + interval ≤ w.grants[n + 1].time →
    w.grants[n + 1].slot = w.grants[n + 1].time
  /-- Nobody is let through before its slot, nor before it asked for it. -/
  passed : ∀ i u, w.passed i = some u →
    ∃ g ∈ w.grants, g.call = i ∧ g.slot ≤ u ∧ g.time ≤ g.slot

theorem Sound.slot_eq (h : w.Sound p first) {n : Nat} (hn : n < w.grants.length) :
    w.grants[n].slot = (first.slots w.times).getD n 0 := by
  rw [← h.slots, PacedCalls.slots, List.getD_eq_getElem?_getD, List.getElem?_map,
    List.getElem?_eq_getElem hn]
  rfl

theorem Sound.paced (h : w.Sound p first) : w.Paced first.interval := by
  have hlength : w.times.length = w.grants.length := List.length_map ..
  have htime : ∀ n (hn : n < w.grants.length), w.times.getD n 0 = w.grants[n].time := by
    intro n hn
    rw [times, List.getD_eq_getElem?_getD, List.getElem?_map, List.getElem?_eq_getElem hn]
    rfl
  refine { h with slot := ?slot, apart := ?apart, prompt := ?prompt, passed := ?passed }
  case slot =>
    intro n hn
    rw [h.slot_eq hn]
    exact Pacing.getD_slots (hlength ▸ hn) fun t ht => (h.timely t ht).1
  case apart =>
    intro m n hmn hn
    rw [h.slot_eq hn, h.slot_eq (Nat.lt_of_le_of_lt hmn hn)]
    exact Pacing.getD_slots_add_le first hmn (hlength ▸ hn)
  case prompt =>
    intro n hn hover
    rw [h.slot_eq (Nat.lt_of_succ_lt hn)] at hover
    rw [h.slot_eq hn, Pacing.getD_slots_succ first (hlength ▸ hn), htime (n + 1) hn]
    exact Nat.max_eq_right hover
  case passed =>
    intro i u hu
    obtain ⟨g, hg, hcall, hslot⟩ := h.passed i u hu
    obtain ⟨n, hn, rfl⟩ := List.getElem_of_mem hg
    refine ⟨_, hg, hcall, hslot, ?_⟩
    rw [h.slot_eq hn, ← htime n hn]
    exact Pacing.getD_le_slots first (hlength ▸ hn)

/-! ### Every sequence of requests -/

/-- Until a call has read the clock, only it goes on. -/
theorem goOn_early (p : Part σ Pacing)
    (h : w.stages i = .idle ∨ w.stages i = .calling ∨ w.stages i = .holding) :
    (w.goOn p i).session = w.session ∧ (w.goOn p i).times = w.times ∧
      ∀ j, j ≠ i → (w.goOn p i).stages j = w.stages j := by
  rcases h with h | h | h
  · rw [goOn_of_idle p h]
    exact ⟨rfl, rfl, fun j hj => Function.update_of_ne hj ..⟩
  · rw [goOn_of_calling p h]
    exact ⟨rfl, rfl, fun j hj => Function.update_of_ne hj ..⟩
  · rw [goOn_of_holding p h]
    exact ⟨rfl, rfl, fun j hj => Function.update_of_ne hj ..⟩

/-- A call that is made when nobody is at the lock can read the clock. -/
theorem leads_reading (p : Part σ Pacing) (hidle : w.stages i = .idle) (hfree : w.holder = none) :
    ∃ w', Leads p w w' ∧ w'.stages i = .reading w.session.clock.uptime ∧
      w'.session = w.session ∧ w'.times = w.times ∧ ∀ j, j ≠ i → w'.stages j = w.stages j := by
  have hready : w.Ready i := by simp [Ready, hidle]
  obtain ⟨hsession, htimes, hothers⟩ := goOn_early p (.inl hidle)
  have hcalling : (w.goOn p i).stages i = .calling := by
    rw [goOn_of_idle p hidle]
    exact Function.update_self ..
  have hfree₁ : (w.goOn p i).holder = none := by
    rw [goOn_of_idle p hidle]
    exact hfree
  have hleads : Leads p w (w.goOn p i) := .single (.goOn i hready)
  generalize w.goOn p i = w₁ at *
  have hready₁ : w₁.Ready i := by simpa [Ready, hcalling] using hfree₁
  obtain ⟨hsession₁, htimes₁, hothers₁⟩ := goOn_early p (.inr (.inl hcalling))
  have hholding : (w₁.goOn p i).stages i = .holding := by
    rw [goOn_of_calling p hcalling]
    exact Function.update_self ..
  have hleads₁ : Leads p w (w₁.goOn p i) := hleads.tail (.goOn i hready₁)
  generalize w₁.goOn p i = w₂ at *
  have hready₂ : w₂.Ready i := by simp [Ready, hholding]
  obtain ⟨hsession₂, htimes₂, hothers₂⟩ := goOn_early p (.inr (.inr hholding))
  refine ⟨w₂.goOn p i, hleads₁.tail (.goOn i hready₂), ?_, by rw [hsession₂, hsession₁, hsession],
    by rw [htimes₂, htimes₁, htimes], fun j hj => by rw [hothers₂ j hj, hothers₁ j hj, hothers j hj]⟩
  rw [goOn_of_holding p hholding, hsession₁, hsession]
  exact Function.update_self ..

/-- A call that is made when nobody is at the lock is granted a slot. -/
theorem leads_request (p : Part σ Pacing) {t : Nat} (hidle : w.stages i = .idle)
    (hfree : w.holder = none) (ht : w.session.clock.uptime ≤ t) :
    ∃ w', Leads p w w' ∧ w'.times = w.times ++ [t] ∧ w'.holder = none ∧
      w'.session.clock.uptime = t ∧ ∀ j, j ≠ i → w'.stages j = w.stages j := by
  let waited : Session σ := { w.session with clock := { w.session.clock with uptime := t } }
  have hwait : Leads p w { w with session := waited } := .single (.other waited rfl ht)
  obtain ⟨w', hleads, hreading, hsession, htimes, hothers⟩ :=
    leads_reading (w := { w with session := waited }) p hidle hfree
  have hready : w'.Ready i := by simp [Ready, hreading]
  refine ⟨w'.goOn p i, (hwait.trans hleads).tail (.goOn i hready), ?_⟩
  rw [goOn_of_reading p hreading]
  refine ⟨?_, rfl, congrArg (·.clock.uptime) hsession, fun j hj => ?_⟩
  · simp only [times, List.map_append, List.map_cons, List.map_nil]
    exact congrArg (· ++ [t]) htimes
  · exact (Function.update_of_ne hj ..).trans (hothers j hj)

/-- **Requests can be made at any times**, one after the other. -/
theorem exists_leads_times (p : Part σ Pacing) (s : Session σ) {asked : List Nat}
    (hordered : asked.Pairwise (· ≤ ·)) (hnow : ∀ t ∈ asked, s.clock.uptime ≤ t) :
    ∃ w, Leads p (start s) w ∧ w.times = asked := by
  suffices h : ∃ w, Leads p (start s) w ∧ w.times = asked ∧ w.holder = none ∧
      (∀ i, asked.length ≤ i → w.stages i = .idle) ∧
      ∀ t, (∀ u ∈ asked, u ≤ t) → s.clock.uptime ≤ t → w.session.clock.uptime ≤ t by
    obtain ⟨w, hleads, htimes, -⟩ := h
    exact ⟨w, hleads, htimes⟩
  induction asked using List.reverseRecOn with
  | nil => exact ⟨start s, .refl, rfl, rfl, fun _ _ => rfl, fun _ _ h => h⟩
  | append_singleton asked t ih =>
      obtain ⟨hbefore, -, hlast⟩ := List.pairwise_append.mp hordered
      obtain ⟨w, hleads, htimes, hfree, hidle, htime⟩ :=
        ih hbefore fun u hu => hnow u (List.mem_append_left _ hu)
      have ht : w.session.clock.uptime ≤ t :=
        htime t (fun u hu => hlast u hu t List.mem_cons_self)
          (hnow t (List.mem_append_right _ List.mem_cons_self))
      obtain ⟨w', hleads', htimes', hfree', hnow', hothers⟩ :=
        leads_request p (hidle asked.length (Nat.le_refl _)) hfree ht
      refine ⟨w', hleads.trans hleads', by rw [htimes', htimes], hfree', fun i hi => ?_,
        fun u hu _ => ?_⟩
      · rw [List.length_append, List.length_singleton] at hi
        rw [hothers i (by omega)]
        exact hidle i (by omega)
      · rw [hnow']
        exact hu t (List.mem_append_right _ List.mem_cons_self)

/-- A call that is made when nobody is at the lock, and goes on while nobody else does, is the
program. -/
theorem leads_acquire (p : Part σ Pacing) (hidle : w.stages i = .idle) (hfree : w.holder = none) :
    let after := (Act.exec (Pacing.acquire p) w.session).2
    ∃ w', Leads p w w' ∧ w'.session = after ∧ w'.passed i = some after.clock.uptime := by
  intro after
  obtain ⟨w₁, hleads, hreading, hsession, -⟩ := leads_reading p hidle hfree
  have hready₁ : w₁.Ready i := by simp [Ready, hreading]
  have hleads₁ : Leads p w (w₁.goOn p i) := hleads.tail (.goOn i hready₁)
  have hsleeping : (w₁.goOn p i).stages i =
      .sleeping ((p.get w.session.world).reserve w.session.clock.uptime).1 := by
    rw [goOn_of_reading p hreading, hsession]
    exact Function.update_self ..
  have hready₂ : (w₁.goOn p i).Ready i := by simp [Ready, hsleeping]
  have hwoken : ((w₁.goOn p i).goOn p i).session = after := by
    rw [goOn_of_sleeping p hsleeping, goOn_of_reading p hreading, hsession]
    rfl
  refine ⟨_, hleads₁.tail (.goOn i hready₂), hwoken, ?_⟩
  rw [← hwoken, goOn_of_sleeping p hsleeping]
  exact Function.update_self ..

/-- A call for a slot that is due takes no time. -/
theorem clock_acquire_of_due (p : Part σ Pacing) {s : Session σ}
    (hdue : (p.get s.world).nextSlot ≤ s.clock.uptime) :
    (Act.exec (Pacing.acquire p) s).2.clock = s.clock := by
  have hslot : ((p.get s.world).reserve s.clock.uptime).1 = s.clock.uptime := Nat.max_eq_right hdue
  rw [Pacing.exec_acquire, hslot, Act.exec_sleepUntil]
  dsimp only
  rw [if_neg (Nat.lt_irrefl _)]

/-- **What calls get that share a pacer.** However many calls there are and however they come in each
other's way: the slots are those of requests made one after the other, at the times at which the calls
read the clock, each slot as early as the requests so far allow; and any times can be such times. The
steps of a call, one after the other, are the program, and the program without company is one of these
runs: it reserves its slot and ends with the first tick of the timer that is no earlier than the slot,
and where the slot is due it takes no time. -/
theorem paced_of_leads (hp : p.Lawful) {s : Session σ} {perSecond created : Nat}
    (hpacing : p.get s.world = Pacing.start perSecond created)
    (hcreated : created ≤ s.clock.uptime) :
    (∀ w, Leads p (start s) w → w.Paced (Pacing.intervalFor perSecond)) ∧
      (∀ asked : List Nat, asked.Pairwise (· ≤ ·) → (∀ t ∈ asked, s.clock.uptime ≤ t) →
        ∃ w, Leads p (start s) w ∧ w.times = asked) ∧
      (∀ (i : Nat) (w : PacedCalls σ), w.stages i = .idle → w.holder = none →
        let after := (Act.exec (Pacing.acquire p) w.session).2
        ∃ w', Leads p w w' ∧ w'.session = after ∧ w'.passed i = some after.clock.uptime) ∧
      ∀ s' : Session σ,
        let act := PaceStage.act p
        let r := (p.get s'.world).reserve s'.clock.uptime
        let after := (Act.exec (Pacing.acquire p) s').2
        Act.exec (act .idle >>= act >>= act >>= act >>= act) s' = (.through, after) ∧
        after.world = p.set r.2 s'.world ∧
        (r.1 ≤ after.clock.uptime ∧ after.clock.uptime =
          if s'.clock.uptime < r.1 then nextMillisecond r.1 else s'.clock.uptime) ∧
        ((p.get s'.world).nextSlot ≤ s'.clock.uptime → after.clock = s'.clock) := by
  refine ⟨fun w hleads => ?_, fun asked => exists_leads_times p s,
    fun i w hidle hfree => leads_acquire p hidle hfree, fun s' => ?_⟩
  · exact ((sound_start hpacing hcreated).leads hp hleads).paced
  · exact ⟨PaceStage.exec_act p s', Act.world_sleepUntil _ _,
      ⟨Nat.le_trans (Nat.le_max_left ..) (Act.le_uptime_sleepUntil _ _), Act.uptime_sleepUntil _ _⟩,
      clock_acquire_of_due p⟩

/-! ### Three calls, step by step -/

/-- A call goes on if it can, or time passes. -/
inductive Move where
  | goOn (i : Nat)
  | wait (nanos : Nat)

def move (p : Part σ Pacing) (w : PacedCalls σ) : Move → PacedCalls σ
  | .goOn i => if w.Ready i then w.goOn p i else w
  | .wait nanos => { w with session := (Act.exec (Act.pass nanos) w.session).2 }

theorem leads_moves (p : Part σ Pacing) (moves : List Move) (w : PacedCalls σ) :
    Leads p w (moves.foldl (move p) w) := by
  induction moves generalizing w with
  | nil => exact .refl
  | cons m rest ih =>
      refine .trans ?_ (ih _)
      cases m with
      | goOn i =>
          change Leads p w (if w.Ready i then w.goOn p i else w)
          by_cases hready : w.Ready i
          · rw [if_pos hready]
            exact .single (.goOn i hready)
          · rw [if_neg hready]
      | wait nanos => exact .single (.other _ rfl (by simp [Clock.uptime_advance]))

/-- The second call waits for the lock, and then for its slot. The third one comes when nobody has asked
for long. -/
def burstAndPause : List Move := [
  .goOn 0, .goOn 1, .goOn 0, .goOn 1, .goOn 0, .wait 7, .goOn 0, .goOn 1, .goOn 1, .goOn 1, .goOn 0,
  .goOn 1, .wait 750000000, .goOn 2, .goOn 2, .goOn 2, .goOn 2, .goOn 2]

theorem paced_burstAndPause :
    let w := burstAndPause.foldl (move ⟨id, fun t _ => t⟩) (start ⟨.start 4 0, ⟨⟨0, 0⟩, 0⟩, []⟩)
    w.grants = [⟨0, 0, 0⟩, ⟨1, 7, 250000000⟩, ⟨2, 1000000000, 1000000000⟩] ∧
    w.line.map w.passed = [some 7, some 250000000, some 1000000000] ∧
    w.Paced (Pacing.intervalFor 4) := by
  intro w
  refine ⟨by decide +kernel, by decide +kernel, ?_⟩
  exact (paced_of_leads (p := ⟨id, fun t _ => t⟩) (fun _ _ => rfl) rfl (Nat.le_refl _)).1 _
    (leads_moves _ burstAndPause _)

end PacedCalls

end DailyBars
