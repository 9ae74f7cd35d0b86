import DailyBars.Collect.LockedRun

/-!
# Histories of locked runs

What happens to runs under locks, each under the lock of some name: a run acquires its lock or is
skipped, its job ends, and it gives its lock back. A history is a list of such events, the last one
first. It follows a rule: a run is skipped exactly if the last one that acquired the lock still keeps
others from it (`LockPlan.Taken`), and it breaks off exactly if no clock can show how long its lock is
to be kept (`LockPlan.Reaches`, `LockPlan.Overreaches`). What locks are for follows from the rule alone
(`Governs`), and the rule looks at no lock of another name, so the events of some names are a history
of their own.
-/

namespace DailyBars

/-- Runs under locks: the name of the lock of each, and its terms. -/
structure LockPlan where
  name : Nat → String
  terms : Nat → LockTerms

/-- What can happen to a run. -/
inductive LockHappening where
  | acquired
  | skipped
  /-- It broke off when it asked for its lock. -/
  | brokeAsking
  /-- Its job has ended. -/
  | ended
  /-- It has given its lock back. -/
  | released
  /-- It broke off when it gave its lock back. -/
  | brokeReleasing
  deriving DecidableEq, Repr

/-- Something that happened to a run at a given uptime. -/
structure LockEvent where
  run : Nat
  time : Nat
  what : LockHappening
  deriving DecidableEq, Repr

/-- Something has happened to a run. -/
def Happened (es : List LockEvent) (i : Nat) (what : LockHappening) : Prop :=
  ∃ e ∈ es, e.run = i ∧ e.what = what

instance (es : List LockEvent) (i : Nat) (what : LockHappening) : Decidable (Happened es i what) :=
  inferInstanceAs (Decidable (∃ e ∈ es, e.run = i ∧ e.what = what))

/-- What has happened to a run. -/
def eventsOf (es : List LockEvent) (i : Nat) : List LockEvent := es.filter (·.run == i)

namespace LockPlan

variable (plan : LockPlan)

/-- By an event a run acquires the lock of a name. -/
def takes (name : String) (e : LockEvent) : Bool :=
  decide (e.what = .acquired ∧ plan.name e.run = name)

/-- By an event a run asks for the lock of a name. -/
def attempts (name : String) (e : LockEvent) : Bool :=
  decide ((e.what = .acquired ∨ e.what = .skipped ∨ e.what = .brokeAsking) ∧
    plan.name e.run = name)

/-- A clock can show until when a run may hold the lock that it asks for by an event. -/
def Reaches (e : LockEvent) : Prop := e.time + (plan.terms e.run).atMost ≤ Clock.lastUptime

/-- When a run that acquired its lock no longer keeps others from it: it may hold the lock for the
most of its time, and when it has given it back, the lock is kept for the least of its time. -/
def keptUntil (es : List LockEvent) (a : LockEvent) : Nat :=
  a.time + if Happened es a.run .released then (plan.terms a.run).atLeast
    else (plan.terms a.run).atMost

/-- The last run that acquired the lock of a name. -/
def lastTaker (es : List LockEvent) (name : String) : Option LockEvent := es.find? (plan.takes name)

/-- The last run that acquired the lock of a name keeps others from it. -/
def Taken (es : List LockEvent) (name : String) (now : Nat) : Prop :=
  ∃ a, plan.lastTaker es name = some a ∧ now < plan.keptUntil es a

/-- A run that acquired its lock at a given uptime, and nobody after it, gives it back before the
least of its time is over, and no clock can show when that will be. -/
def Overreaches (old : List LockEvent) (i start now : Nat) : Prop :=
  plan.lastTaker old (plan.name i) = some ⟨i, start, .acquired⟩ ∧
    now < start + (plan.terms i).atLeast ∧ Clock.lastUptime < start + (plan.terms i).atLeast

/-- What may happen next. -/
def Follows (old : List LockEvent) (e : LockEvent) : Prop :=
  match e.what with
  | .acquired => eventsOf old e.run = [] ∧ ¬ plan.Taken old (plan.name e.run) e.time ∧ plan.Reaches e
  | .skipped => eventsOf old e.run = [] ∧ plan.Taken old (plan.name e.run) e.time
  | .brokeAsking => eventsOf old e.run = [] ∧ ¬ plan.Taken old (plan.name e.run) e.time ∧
      ¬ plan.Reaches e
  | .ended => ∃ start, eventsOf old e.run = [⟨e.run, start, .acquired⟩]
  | .released => ∃ start stop,
      eventsOf old e.run = [⟨e.run, stop, .ended⟩, ⟨e.run, start, .acquired⟩] ∧
        ¬ plan.Overreaches old e.run start e.time
  | .brokeReleasing => ∃ start stop,
      eventsOf old e.run = [⟨e.run, stop, .ended⟩, ⟨e.run, start, .acquired⟩] ∧
        plan.Overreaches old e.run start e.time

end LockPlan

/-- What can have happened until a given uptime. -/
inductive LockHistory (plan : LockPlan) (start : Nat) : Nat → List LockEvent → Prop
  | start : LockHistory plan start start []
  | pass {now later : Nat} {es : List LockEvent} (h : LockHistory plan start now es)
      (hle : now ≤ later) : LockHistory plan start later es
  | happen {es : List LockEvent} {e : LockEvent} (h : LockHistory plan start e.time es)
      (hfollows : plan.Follows es e) : LockHistory plan start e.time (e :: es)

/-! ### Events -/

section Events

variable {es es' : List LockEvent} {e : LockEvent} {i j : Nat} {what : LockHappening}

theorem Happened.mono (h : Happened es i what) (hsub : es ⊆ es') : Happened es' i what := by
  obtain ⟨e, he, hrun, hwhat⟩ := h
  exact ⟨e, hsub he, hrun, hwhat⟩

@[simp] theorem happened_cons :
    Happened (e :: es) i what ↔ (e.run = i ∧ e.what = what) ∨ Happened es i what := by
  simp [Happened]

theorem happened_of_mem_eventsOf (h : e ∈ eventsOf es i) : Happened es i e.what := by
  obtain ⟨hmem, hrun⟩ := List.mem_filter.mp h
  exact ⟨e, hmem, by simpa using hrun, rfl⟩

@[simp] theorem eventsOf_nil : eventsOf [] i = [] := rfl

@[simp] theorem eventsOf_cons :
    eventsOf (e :: es) i = if e.run = i then e :: eventsOf es i else eventsOf es i := by
  simp [eventsOf, List.filter_cons]

/-- Whether something has happened to a run can be seen from the events of that run. -/
theorem happened_iff_mem_eventsOf :
    Happened es i what ↔ ∃ e ∈ eventsOf es i, e.what = what := by
  constructor
  · rintro ⟨e, he, hrun, hwhat⟩
    exact ⟨e, List.mem_filter.mpr ⟨he, by simpa using hrun⟩, hwhat⟩
  · rintro ⟨e, he, rfl⟩
    exact happened_of_mem_eventsOf he

end Events

/-! ### What the rule says of a history -/

namespace LockHistory

variable {plan : LockPlan} {start now : Nat} {es recent old : List LockEvent} {a b e : LockEvent}

/-- Every event followed what had happened before. -/
theorem split (h : LockHistory plan start now es) (heq : es = recent ++ e :: old) :
    plan.Follows old e ∧ LockHistory plan start e.time old := by
  induction h generalizing recent with
  | start => simp at heq
  | pass _ _ ih => exact ih heq
  | happen h hfollows ih =>
      cases recent with
      | nil =>
          obtain ⟨rfl, rfl⟩ := List.cons.inj heq
          exact ⟨hfollows, h⟩
      | cons x recent => exact ih (List.cons.inj heq).2

theorem time_le (h : LockHistory plan start now es) (he : e ∈ es) : e.time ≤ now := by
  induction h with
  | start => cases he
  | pass _ hle ih => exact Nat.le_trans (ih he) hle
  | happen _ _ ih =>
      obtain rfl | he := List.mem_cons.mp he
      · exact Nat.le_refl _
      · exact ih he

/-- Nothing happens to a run twice. -/
theorem eq_of_what_eq (h : LockHistory plan start now es) (ha : a ∈ es) (hb : b ∈ es)
    (hrun : a.run = b.run) (hwhat : a.what = b.what) : a = b := by
  have hnot : ∀ {recent old : List LockEvent} {x y : LockEvent}, es = recent ++ x :: old →
      y ∈ old → y.run = x.run → y.what ≠ x.what := by
    intro recent old x y heq hy hrun hwhat
    obtain ⟨hfollows, -⟩ := h.split heq
    have hevents : y ∈ eventsOf old x.run := List.mem_filter.mpr ⟨hy, by simpa using hrun⟩
    unfold LockPlan.Follows at hfollows
    cases hx : x.what with
    | acquired | skipped | brokeAsking =>
        rw [hx] at hfollows
        simp [hfollows.1] at hevents
    | ended =>
        rw [hx] at hfollows
        obtain ⟨began, hbefore⟩ := hfollows
        rw [hbefore, List.mem_singleton] at hevents
        rw [hx, hevents] at hwhat
        cases hwhat
    | released | brokeReleasing =>
        rw [hx] at hfollows
        obtain ⟨began, stop, hbefore, -⟩ := hfollows
        rw [hx] at hwhat
        rw [hbefore] at hevents
        obtain rfl | hevents := List.mem_cons.mp hevents
        · cases hwhat
        · rw [List.mem_singleton.mp hevents] at hwhat
          cases hwhat
  obtain ⟨recent, old, heq⟩ := List.append_of_mem ha
  obtain hmem | hmem := List.mem_append.mp (heq ▸ hb)
  · obtain ⟨newer, between, hsplit⟩ := List.append_of_mem hmem
    have heq' : es = newer ++ b :: (between ++ a :: old) := by simp [heq, hsplit]
    exact absurd hwhat (hnot heq' (by simp) hrun)
  · obtain rfl | hold := List.mem_cons.mp hmem
    · rfl
    · exact absurd hwhat.symm (hnot heq hold hrun.symm)

/-- The job of a run that has given its lock back has ended. -/
theorem ended_of_released (h : LockHistory plan start now es) {i : Nat}
    (hreleased : Happened es i .released) : Happened es i .ended := by
  obtain ⟨e, he, rfl, hwhat⟩ := hreleased
  obtain ⟨recent, old, heq⟩ := List.append_of_mem he
  obtain ⟨hfollows, -⟩ := h.split heq
  unfold LockPlan.Follows at hfollows
  rw [hwhat] at hfollows
  obtain ⟨began, stop, hevents, -⟩ := hfollows
  have hended : Happened old e.run .ended :=
    happened_of_mem_eventsOf (e := ⟨e.run, stop, .ended⟩) (hevents ▸ List.mem_cons_self)
  exact hended.mono fun x hx => by simp [heq, hx]

end LockHistory

/-! ### What locks are for -/

namespace LockPlan

variable (plan : LockPlan)

/-- A run no longer has anything to protect at a given time: it could not hold its lock for longer, or
it has given it back after its job, and the least time of the lock is over. -/
def Cleared (old : List LockEvent) (a : LockEvent) (time : Nat) : Prop :=
  a.time + (plan.terms a.run).atMost ≤ time ∨
    Happened old a.run .ended ∧ Happened old a.run .released ∧
      a.time + (plan.terms a.run).atLeast ≤ time

/-- A run keeps others from its lock: it may still hold it, or it has given it back before the least
time of the lock is over. -/
def Keeps (old : List LockEvent) (a : LockEvent) (time : Nat) : Prop :=
  ¬ Happened old a.run .released ∧ time < a.time + (plan.terms a.run).atMost ∨
    Happened old a.run .released ∧ time < a.time + (plan.terms a.run).atLeast

/-- The job of a run ends in the time for which it may hold its lock. -/
def EndsInTime (es : List LockEvent) (a : LockEvent) (stop : Nat) : Prop :=
  ⟨a.run, stop, .ended⟩ ∈ es ∧ stop ≤ a.time + (plan.terms a.run).atMost

/-- What locks are for. -/
structure Governs (es : List LockEvent) : Prop where
  /-- A run that asks for a lock is skipped if somebody keeps it from the lock, and acquires it if
  nobody does and a clock can show until when. -/
  decided : ∀ recent b old, es = recent ++ b :: old → ∀ name, plan.attempts name b →
    (b.what = .skipped ↔ plan.Taken old name b.time) ∧
      (b.what = .acquired ↔ ¬ plan.Taken old name b.time ∧ plan.Reaches b)
  /-- No run breaks off while a clock can show how long its lock is to be kept. -/
  unbroken : ∀ recent b old, es = recent ++ b :: old →
    (b.what = .brokeAsking → ¬ plan.Reaches b) ∧
      (b.what = .brokeReleasing → ∃ start, ⟨b.run, start, .acquired⟩ ∈ old ∧
        Clock.lastUptime < start + (plan.terms b.run).atLeast)
  /-- A run acquires a lock only when those that acquired it before have nothing to protect any
  more. -/
  spaced : ∀ recent b old, es = recent ++ b :: old → b.what = .acquired →
    ∀ a ∈ old, plan.takes (plan.name b.run) a → a.time ≤ b.time ∧ plan.Cleared old a b.time
  /-- A run is skipped only when another one keeps it from the lock. -/
  skipped : ∀ recent b old, es = recent ++ b :: old → b.what = .skipped →
    ∃ a ∈ old, plan.takes (plan.name b.run) a ∧ a.time ≤ b.time ∧ plan.Keeps old a b.time
  /-- Of several attempts at a lock that nobody keeps, all of them made while the first may hold the
  lock and has not given it back, exactly one runs: the first. -/
  once : ∀ recent first old, es = recent ++ first :: old → ∀ name, plan.attempts name first →
    ¬ plan.Taken old name first.time → plan.Reaches first →
    (∀ b ∈ recent, plan.attempts name b → b.time < first.time + (plan.terms first.run).atMost) →
    ¬ Happened recent first.run .released → (recent ++ [first]).filter (plan.takes name) = [first]
  /-- Jobs that end in time do not overlap. -/
  apart : ∀ a ∈ es, ∀ b ∈ es, a ≠ b → a.what = .acquired → plan.takes (plan.name a.run) b →
    ∀ stop stop', plan.EndsInTime es a stop → plan.EndsInTime es b stop' →
      stop ≤ b.time ∨ stop' ≤ a.time

variable {plan} {es old : List LockEvent} {a b : LockEvent} {name : String} {t t' : Nat}

theorem takes_iff : plan.takes name a ↔ a.what = .acquired ∧ plan.name a.run = name := by
  simp [takes]

theorem attempts_iff : plan.attempts name a ↔
    (a.what = .acquired ∨ a.what = .skipped ∨ a.what = .brokeAsking) ∧
      plan.name a.run = name := by
  simp [attempts]

theorem Cleared.mono (h : plan.Cleared old a t) (hsub : old ⊆ es) (ht : t ≤ t') :
    plan.Cleared es a t' := by
  obtain hmost | ⟨hended, hreleased, hleast⟩ := h
  · exact .inl (Nat.le_trans hmost ht)
  · exact .inr ⟨hended.mono hsub, hreleased.mono hsub, Nat.le_trans hleast ht⟩

theorem keeps_iff : plan.Keeps es a t ↔ t < plan.keptUntil es a := by
  by_cases h : Happened es a.run .released <;> simp [Keeps, keptUntil, h]

end LockPlan

namespace LockHistory

variable {plan : LockPlan} {start now t : Nat} {es recent old : List LockEvent}
  {a b e first : LockEvent} {name : String}

/-- When a lock is free, everyone who acquired it has nothing to protect any more. -/
theorem cleared_of_free {now t : Nat} {es : List LockEvent} {a : LockEvent}
    (h : LockHistory plan start now es) (ht : now ≤ t)
    (hfree : ¬ plan.Taken es name t) (ha : a ∈ es) (htakes : plan.takes name a) :
    plan.Cleared es a t := by
  cases hlast : plan.lastTaker es name with
  | none => exact absurd htakes (by simpa using List.find?_eq_none.mp hlast a ha)
  | some l =>
      obtain ⟨hl, recent, old, heq, hnone⟩ := List.find?_eq_some_iff_append.mp hlast
      by_cases hal : a = l
      · -- The last one that acquired the lock does not keep it.
        subst hal
        have hover : plan.keptUntil es a ≤ t := Nat.le_of_not_lt fun hlt => hfree ⟨a, hlast, hlt⟩
        unfold LockPlan.keptUntil at hover
        by_cases hreleased : Happened es a.run .released
        · rw [if_pos hreleased] at hover
          exact .inr ⟨h.ended_of_released hreleased, hreleased, hover⟩
        · rw [if_neg hreleased] at hover
          exact .inl hover
      · -- The others were cleared when the last one acquired it.
        have hold : a ∈ old := by
          rw [heq] at ha
          obtain ha | ha := List.mem_append.mp ha
          · exact absurd htakes (by simpa using hnone a ha)
          · exact (List.mem_cons.mp ha).resolve_left hal
        obtain ⟨hwhat, hname⟩ := LockPlan.takes_iff.mp hl
        obtain ⟨hfollows, hhistory⟩ := h.split heq
        unfold LockPlan.Follows at hfollows
        rw [hwhat] at hfollows
        dsimp only at hfollows
        rw [hname] at hfollows
        have hcleared := hhistory.cleared_of_free (Nat.le_refl _) hfollows.2.1 hold htakes
        have hmem : l ∈ es := by simp [heq]
        exact hcleared.mono (fun x hx => by simp [heq, hx]) (Nat.le_trans (h.time_le hmem) ht)
termination_by es.length
decreasing_by
  subst heq
  simp
  omega

theorem spaced (h : LockHistory plan start now es) (heq : es = recent ++ b :: old)
    (hb : b.what = .acquired) (ha : a ∈ old) (htakes : plan.takes (plan.name b.run) a) :
    a.time ≤ b.time ∧ plan.Cleared old a b.time := by
  obtain ⟨hfollows, hold⟩ := h.split heq
  unfold LockPlan.Follows at hfollows
  rw [hb] at hfollows
  exact ⟨hold.time_le ha, hold.cleared_of_free (Nat.le_refl _) hfollows.2.1 ha htakes⟩

theorem skipped (h : LockHistory plan start now es) (heq : es = recent ++ b :: old)
    (hb : b.what = .skipped) : ∃ a ∈ old, plan.takes (plan.name b.run) a ∧ a.time ≤ b.time ∧
      plan.Keeps old a b.time := by
  obtain ⟨hfollows, hold⟩ := h.split heq
  unfold LockPlan.Follows at hfollows
  rw [hb] at hfollows
  obtain ⟨-, a, hlast, hkept⟩ := hfollows
  have hmem := List.mem_of_find?_eq_some hlast
  exact ⟨a, hmem, List.find?_some hlast, hold.time_le hmem, LockPlan.keeps_iff.mpr hkept⟩

theorem decided (h : LockHistory plan start now es) (heq : es = recent ++ e :: old)
    (hattempt : plan.attempts name e) :
    (e.what = .skipped ↔ plan.Taken old name e.time) ∧
      (e.what = .acquired ↔ ¬ plan.Taken old name e.time ∧ plan.Reaches e) := by
  obtain ⟨hwhat, rfl⟩ := LockPlan.attempts_iff.mp hattempt
  obtain ⟨hfollows, -⟩ := h.split heq
  unfold LockPlan.Follows at hfollows
  obtain hwhat | hwhat | hwhat := hwhat <;> rw [hwhat] at hfollows <;> simp [hwhat, hfollows.2]

theorem unbroken (h : LockHistory plan start now es) (heq : es = recent ++ e :: old) :
    (e.what = .brokeAsking → ¬ plan.Reaches e) ∧
      (e.what = .brokeReleasing → ∃ began, ⟨e.run, began, .acquired⟩ ∈ old ∧
        Clock.lastUptime < began + (plan.terms e.run).atLeast) := by
  obtain ⟨hfollows, -⟩ := h.split heq
  unfold LockPlan.Follows at hfollows
  constructor
  · intro hwhat
    rw [hwhat] at hfollows
    exact hfollows.2.2
  · intro hwhat
    rw [hwhat] at hfollows
    obtain ⟨began, -, -, hlast, -, hbeyond⟩ := hfollows
    exact ⟨began, List.mem_of_find?_eq_some hlast, hbeyond⟩

theorem once (h : LockHistory plan start now es) (heq : es = recent ++ first :: old)
    (hattempt : plan.attempts name first) (hfree : ¬ plan.Taken old name first.time)
    (hreaches : plan.Reaches first)
    (hwhile : ∀ b ∈ recent, plan.attempts name b →
      b.time < first.time + (plan.terms first.run).atMost)
    (hkept : ¬ Happened recent first.run .released) :
    (recent ++ [first]).filter (plan.takes name) = [first] := by
  have hfirst : plan.takes name first := LockPlan.takes_iff.mpr
    ⟨(h.decided heq hattempt).2.mpr ⟨hfree, hreaches⟩, (LockPlan.attempts_iff.mp hattempt).2⟩
  have hnone : ∀ b ∈ recent, ¬ plan.takes name b := by
    intro b hb htakes
    obtain ⟨hwhat, hname⟩ := LockPlan.takes_iff.mp htakes
    obtain ⟨newer, between, hsplit⟩ := List.append_of_mem hb
    have heq' : es = newer ++ b :: (between ++ first :: old) := by simp [heq, hsplit]
    obtain ⟨-, hcleared⟩ := h.spaced heq' hwhat (by simp) (hname ▸ hfirst)
    obtain hmost | ⟨-, hreleased, -⟩ := hcleared
    · have hlt := hwhile b hb (LockPlan.attempts_iff.mpr ⟨.inl hwhat, hname⟩)
      omega
    · -- The first run has not given its lock back since, and it had no lock before.
      obtain ⟨hfollows, -⟩ := h.split heq
      unfold LockPlan.Follows at hfollows
      rw [(LockPlan.takes_iff.mp hfirst).1] at hfollows
      obtain ⟨x, hx, hrun, hwhatx⟩ := hreleased
      obtain hx | hx := List.mem_append.mp hx
      · exact hkept ⟨x, by simp [hsplit, hx], hrun, hwhatx⟩
      · obtain rfl | hx := List.mem_cons.mp hx
        · cases hwhatx.symm.trans (LockPlan.takes_iff.mp hfirst).1
        · have hevents : x ∈ eventsOf old first.run := List.mem_filter.mpr ⟨hx, by simpa using hrun⟩
          simp [hfollows.1] at hevents
  simp [List.filter_append, List.filter_eq_nil_iff.mpr hnone, hfirst]

/-- The job of a run that acquired its lock after another ended in time begins no earlier than the
other job ends. -/
theorem stop_le (h : LockHistory plan start now es) (heq : es = recent ++ b :: old)
    (hb : b.what = .acquired) (ha : a ∈ old) (htakes : plan.takes (plan.name b.run) a) {stop : Nat}
    (hstop : plan.EndsInTime es a stop) : stop ≤ b.time := by
  obtain ⟨hended, hintime⟩ := hstop
  obtain ⟨-, hmost | ⟨⟨x, hx, hrun, hwhat⟩, -, -⟩⟩ := h.spaced heq hb ha htakes
  · exact Nat.le_trans hintime hmost
  · -- The job has ended before the second run acquired the lock.
    have hxes : x ∈ es := by simp [heq, hx]
    obtain rfl := h.eq_of_what_eq hxes hended hrun hwhat
    exact (h.split heq).2.time_le hx

theorem apart (h : LockHistory plan start now es) (ha : a ∈ es) (hb : b ∈ es) (hne : a ≠ b)
    (hwhat : a.what = .acquired) (htakes : plan.takes (plan.name a.run) b) {stop stop' : Nat}
    (hstop : plan.EndsInTime es a stop) (hstop' : plan.EndsInTime es b stop') :
    stop ≤ b.time ∨ stop' ≤ a.time := by
  obtain ⟨hwhat', hname⟩ := LockPlan.takes_iff.mp htakes
  obtain ⟨recent, old, heq⟩ := List.append_of_mem ha
  have hmem := heq ▸ hb
  obtain hmem | hmem := List.mem_append.mp hmem
  · -- The second run acquired the lock after the first.
    obtain ⟨newer, between, hsplit⟩ := List.append_of_mem hmem
    have heq' : es = newer ++ b :: (between ++ a :: old) := by simp [heq, hsplit]
    exact .inl (h.stop_le heq' hwhat' (by simp) (LockPlan.takes_iff.mpr ⟨hwhat, hname.symm⟩) hstop)
  · have hold : b ∈ old := (List.mem_cons.mp hmem).resolve_left hne.symm
    exact .inr (h.stop_le heq hwhat hold htakes hstop')

/-- **Locks do what they are for** in every history. -/
theorem governs (h : LockHistory plan start now es) : plan.Governs es where
  decided _ _ _ heq _ hattempt := h.decided heq hattempt
  spaced _ _ _ heq hb _ ha htakes := h.spaced heq hb ha htakes
  skipped _ _ _ heq hb := h.skipped heq hb
  unbroken _ _ _ heq := h.unbroken heq
  once _ _ _ heq _ hattempt hfree hreaches hwhile hkept :=
    h.once heq hattempt hfree hreaches hwhile hkept
  apart _ ha _ hb hne hwhat htakes _ _ hstop hstop' := h.apart ha hb hne hwhat htakes hstop hstop'

end LockHistory

/-! ### Locks of other names -/

namespace LockPlan

variable (plan : LockPlan) (names : String → Bool)

/-- What happens to the runs under locks of some names. -/
def under (es : List LockEvent) : List LockEvent := es.filter fun e => names (plan.name e.run)

variable {plan names} {es : List LockEvent} {e : LockEvent} {name : String} {i now : Nat}

theorem eventsOf_under (hi : names (plan.name i)) :
    eventsOf (plan.under names es) i = eventsOf es i := by
  unfold eventsOf under
  rw [List.filter_filter]
  refine List.filter_congr fun e _ => ?_
  by_cases he : e.run = i <;> simp [he, hi]

theorem happened_under {what : LockHappening} (hi : names (plan.name i)) :
    Happened (plan.under names es) i what ↔ Happened es i what := by
  rw [happened_iff_mem_eventsOf, happened_iff_mem_eventsOf, eventsOf_under hi]

theorem lastTaker_under (hname : names name) :
    plan.lastTaker (plan.under names es) name = plan.lastTaker es name := by
  unfold lastTaker under
  rw [List.find?_filter]
  refine congrArg (es.find? ·) (funext fun e => ?_)
  by_cases he : plan.name e.run = name <;> simp [takes, he, hname]

theorem taken_under (hname : names name) :
    plan.Taken (plan.under names es) name now ↔ plan.Taken es name now := by
  unfold Taken
  rw [lastTaker_under hname]
  refine exists_congr fun a => and_congr_right fun hlast => ?_
  have hrun : plan.name a.run = name := (takes_iff.mp (List.find?_some hlast)).2
  have hreleased : Happened (plan.under names es) a.run .released ↔ Happened es a.run .released :=
    happened_under (hrun ▸ hname)
  simp only [keptUntil, hreleased]

theorem follows_under (he : names (plan.name e.run)) :
    plan.Follows (plan.under names es) e ↔ plan.Follows es e := by
  unfold Follows Overreaches
  rw [eventsOf_under he, taken_under he, lastTaker_under he]

end LockPlan

/-- **Locks of other names make no difference**: what happens under some names could have happened
without the rest. -/
theorem LockHistory.under {plan : LockPlan} {start now : Nat} {es : List LockEvent}
    (h : LockHistory plan start now es) (names : String → Bool) :
    LockHistory plan start now (plan.under names es) := by
  induction h with
  | start => exact .start
  | pass _ hle ih => exact .pass ih hle
  | @happen es e _ hfollows ih =>
      by_cases he : names (plan.name e.run)
      · have hcons : plan.under names (e :: es) = e :: plan.under names es :=
          List.filter_cons_of_pos he
        rw [hcons]
        exact .happen ih ((LockPlan.follows_under he).mpr hfollows)
      · have hcons : plan.under names (e :: es) = plan.under names es :=
          List.filter_cons_of_neg he
        rwa [hcons]

end DailyBars
