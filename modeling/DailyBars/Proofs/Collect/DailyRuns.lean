import DailyBars.Collect.Schedule
import DailyBars.Proofs.Calendar.NextRun
import DailyBars.Proofs.Session
import DailyBars.Settings.App
import Mathlib.Data.Nat.Init

/-!
# The runs of a daily job

A daily job goes in rounds: the clock is read, the next run is waited for, and the task is run. Each
round starts its task at the first showing of the time after the round before was over
(`DailyJob.isNext_started`), because a wait that takes exactly the time asked for ends there. So no
two tasks are started on one date, and a date is left out only if a task was still being run when its
time was shown (`Schedule.runs_daily`).
-/

namespace DailyBars

/-! ### Instants that are not within a leap second -/

namespace Instant

variable {t u v : Instant}

theorem lt_trans (h : t < u) (h' : u < v) : t < v := by
  rw [lt_iff] at h h' ⊢
  omega

theorem lt_irrefl (t : Instant) : ¬ t < t := by
  rw [lt_iff]
  omega

theorem ofNanos_totalNanos (h : t.Regular) : ofNanos t.totalNanos = t := by
  obtain ⟨seconds, nanos⟩ := t
  unfold Regular at h
  unfold ofNanos totalNanos
  rw [Instant.mk.injEq]
  dsimp only at h ⊢
  omega

end Instant

namespace Schedule

variable {σ : Type} {wait : Nat → Act σ Unit} {time : TimeOfDay} {s : Session σ}

/-! ### One round -/

/-- Waiting takes exactly the time asked for. -/
def Exact (wait : Nat → Act σ Unit) : Prop :=
  ∀ nanos s, (Act.exec (wait nanos) s).2.clock = s.clock.advance nanos

/-- A task takes some time, which may be none. -/
def TakesTime (task : Act σ Unit) : Prop :=
  ∀ s : Session σ, s.clock.Later (Act.exec task s).2.clock

theorem exact_pass : Exact (Act.pass (σ := σ)) := fun _ _ => rfl

theorem clock_untilNext (hwait : Exact wait) (job : String) (time : TimeOfDay) (s : Session σ) :
    (Act.exec (untilNext wait job time) s).2.clock =
      s.clock.advance (Seoul.waitForNext s.clock.wall time) :=
  hwait _ _

/-- A wait for the next run is over at the next run. -/
theorem wall_untilNext (hwait : Exact wait) (job : String) (htime : time.nanos < 1000000000)
    (hwall : s.clock.wall.Regular) (hsteady : Seoul.Steady s.clock.wall s.clock.wall) :
    (Act.exec (untilNext wait job time) s).2.clock.wall = Seoul.nextRunAfter s.clock.wall time := by
  obtain ⟨hlength, hpositive, -⟩ := hsteady.waitForNext_eq hwall htime
  have hnext := hsteady.isNext_nextRunAfter hwall.nanos_lt time
  rw [clock_untilNext hwait]
  unfold Clock.advance Instant.plusNanos
  rw [if_neg (Nat.ne_of_gt hpositive)]
  dsimp only
  rw [hlength, show ∀ a b : Int, a + (b - a) = b by omega,
    Instant.ofNanos_totalNanos (hnext.regular htime)]

/-! ### Rounds -/

namespace DailyJob

/-- The session after some rounds of a job. -/
def ended (wait : Nat → Act σ Unit) (j : DailyJob σ) (s : Session σ) (rounds : Nat) : Session σ :=
  (Act.exec (runDailyBy wait j.name j.time j.task rounds) s).2

/-- The session in which the task is started after some rounds of a job. -/
def started (wait : Nat → Act σ Unit) (j : DailyJob σ) (s : Session σ) (rounds : Nat) : Session σ :=
  (Act.exec (untilNext wait j.name j.time) (j.ended wait s rounds)).2

variable {j : DailyJob σ} {i k n : Nat}

@[simp] theorem ended_zero (wait : Nat → Act σ Unit) (j : DailyJob σ) (s : Session σ) :
    j.ended wait s 0 = s := rfl

/-- A further round starts the task where the wait after the rounds before it is over. -/
theorem ended_succ (wait : Nat → Act σ Unit) (j : DailyJob σ) (s : Session σ) (rounds : Nat) :
    j.ended wait s (rounds + 1) = (Act.exec j.task (j.started wait s rounds)).2 := by
  induction rounds generalizing s with
  | zero => rfl
  | succ n ih => exact ih (Act.exec j.task (Act.exec (untilNext wait j.name j.time) s).2).2

theorem later_started (hwait : Exact wait) (k : Nat) :
    (j.ended wait s k).clock.Later (j.started wait s k).clock := by
  unfold started
  rw [clock_untilNext hwait]
  exact Clock.later_advance _ _

theorem later_ended_succ (wait : Nat → Act σ Unit) (htask : TakesTime j.task) (s : Session σ)
    (k : Nat) :
    (j.started wait s k).clock.Later (j.ended wait s (k + 1)).clock := by
  rw [ended_succ]
  exact htask _

/-- More rounds end later. -/
theorem later_ended (hwait : Exact wait) (htask : TakesTime j.task) (h : i ≤ k) :
    (j.ended wait s i).clock.Later (j.ended wait s k).clock := by
  induction k, h using Nat.le_induction with
  | base => exact Clock.Later.refl _
  | succ k _ ih => exact (ih.trans (later_started hwait k)).trans (later_ended_succ wait htask s k)

/-- What a job needs to be started every day: the clock shows no leap second, and is not changed
while the job goes through its rounds. -/
structure Steady (wait : Nat → Act σ Unit) (j : DailyJob σ) (s : Session σ) (n : Nat) : Prop where
  exact : Exact wait
  takesTime : TakesTime j.task
  time : j.time.nanos < 1000000000
  regular : s.clock.wall.Regular
  period : Seoul.Steady s.clock.wall (j.ended wait s n).clock.wall

namespace Steady

variable (h : j.Steady wait s n)
include h

theorem regular_ended (k : Nat) : (j.ended wait s k).clock.wall.Regular :=
  (later_ended h.exact h.takesTime (Nat.zero_le k)).regular h.regular

theorem regular_started (k : Nat) : (j.started wait s k).clock.wall.Regular :=
  (later_started h.exact k).regular (h.regular_ended k)

/-- Around the end of each round the period is steady. -/
theorem period_ended (hk : k ≤ n) :
    Seoul.Steady (j.ended wait s k).clock.wall (j.ended wait s k).clock.wall := by
  have hstart := (later_ended (s := s) h.exact h.takesTime (Nat.zero_le k)).totalNanos_eq
  have hend := (later_ended (s := s) h.exact h.takesTime hk).totalNanos_eq
  rw [ended_zero] at hstart
  exact h.period.part (h.regular_ended k) (by omega) (by omega)

theorem wall_started (hk : k ≤ n) :
    (j.started wait s k).clock.wall =
      Seoul.nextRunAfter (j.ended wait s k).clock.wall j.time :=
  wall_untilNext h.exact j.name h.time (h.regular_ended k) (h.period_ended hk)

/-- **A task is started at the first showing of its time after the round before was over.** -/
theorem isNext_started (hk : k ≤ n) :
    Seoul.IsNext (j.ended wait s k).clock.wall j.time (j.started wait s k).clock.wall := by
  rw [h.wall_started hk]
  exact (h.period_ended hk).isNext_nextRunAfter (h.regular_ended k).nanos_lt j.time

/-- The offset at the start of each task is the one at the start of the job. -/
theorem offsetAt_started (hk : k ≤ n) :
    Seoul.offsetAt (j.started wait s k).clock.wall = Seoul.offsetAt s.clock.wall := by
  have hstart := (later_ended (s := s) h.exact h.takesTime (Nat.zero_le k)).totalNanos_eq
  have hend := (later_ended (s := s) h.exact h.takesTime hk).totalNanos_eq
  obtain ⟨hwait, -, hday⟩ := (h.period_ended hk).waitForNext_eq (h.regular_ended k) h.time
  rw [← h.wall_started hk] at hwait
  rw [ended_zero] at hstart
  have hpositive : 0 < Instant.dayNanos := by decide
  exact (h.period _ (h.regular_started k) (by omega) (by omega)).2

/-- The tasks are started one after the other. -/
theorem started_lt_started (hik : i < k) (hk : k ≤ n) :
    (j.started wait s i).clock.wall < (j.started wait s k).clock.wall := by
  have htask := (later_ended_succ wait h.takesTime s i).totalNanos_eq
  have hrounds := (later_ended (i := i + 1) (s := s) h.exact h.takesTime hik).totalNanos_eq
  have hnext := (h.isNext_started hk).later
  rw [Instant.lt_iff_totalNanos_lt (h.regular_ended _) (h.regular_started _)] at hnext
  rw [Instant.lt_iff_totalNanos_lt (h.regular_started _) (h.regular_started _)]
  omega

/-- When its time is shown the task is started, unless it was started before and is not over. -/
theorem started_or_running {u : Instant} (hshows : Seoul.ShowsTime u j.time)
    (hstart : s.clock.wall < u) (hk : k ≤ n) (hu : ¬ (j.started wait s k).clock.wall < u) :
    (∃ i ≤ k, (j.started wait s i).clock.wall = u) ∨
      ∃ i < k, (j.started wait s i).clock.wall < u ∧ ¬ (j.ended wait s (i + 1)).clock.wall < u := by
  induction k with
  | zero =>
      have hnext := h.isNext_started hk
      rw [ended_zero] at hnext
      exact .inl ⟨0, Nat.le_refl 0, (hnext.first u hstart hshows).resolve_right hu⟩
  | succ k ih =>
      by_cases hbefore : (j.started wait s k).clock.wall < u
      · by_cases hover : (j.ended wait s (k + 1)).clock.wall < u
        · exact .inl ⟨k + 1, Nat.le_refl _,
            ((h.isNext_started hk).first u hover hshows).resolve_right hu⟩
        · exact .inr ⟨k, Nat.lt_succ_self k, hbefore, hover⟩
      · obtain ⟨i, hi, hstarted⟩ | ⟨i, hi, hrunning⟩ := ih (by omega) hbefore
        · exact .inl ⟨i, by omega, hstarted⟩
        · exact .inr ⟨i, by omega, hrunning⟩

end Steady

end DailyJob

/-! ### The schedule -/

/-- The instants at which a task is started, and those at which the rounds end, keep to a daily
schedule up to the round with a given number: the task is started when its time is shown and once a
date, each date in between has its time, and it is left out only if the task was started before then
and was still being run or just over. -/
structure KeepsSchedule (time : TimeOfDay) (start : Instant) (fires ends : Nat → Instant) (n : Nat) :
    Prop where
  increasing : ∀ i k, i < k → k ≤ n → fires i < fires k
  shows : ∀ i ≤ n, Seoul.ShowsTime (fires i) time
  dates : ∀ i k, i < k → k ≤ n → Seoul.dateAt (fires i) < Seoul.dateAt (fires k)
  dated : ∀ date, Seoul.dateAt start < date → date < Seoul.dateAt (fires n) →
    ∃ u, Seoul.reading? u = some ⟨date, time⟩ ∧ start < u ∧ u < fires n
  leftOut : ∀ date u, Seoul.reading? u = some ⟨date, time⟩ → start < u → u < fires n →
    (∀ i ≤ n, Seoul.dateAt (fires i) ≠ date) → ∃ i < n, fires i < u ∧ ¬ ends (i + 1) < u

/-- In a steady period a job keeps to its schedule. -/
theorem DailyJob.Steady.keepsSchedule {j : DailyJob σ} {n : Nat} (h : j.Steady wait s n) :
    KeepsSchedule j.time s.clock.wall (fun k => (j.started wait s k).clock.wall)
      (fun k => (j.ended wait s k).clock.wall) n where
  increasing i k hik hk := h.started_lt_started hik hk
  shows i hi := (h.isNext_started hi).shows
  dates i k hik hk := by
    have hoffset := (h.offsetAt_started (by omega : i ≤ n)).trans (h.offsetAt_started hk).symm
    exact Seoul.dateAt_lt_of_lt (h.isNext_started (by omega)).shows (h.isNext_started hk).shows hoffset
      (h.started_lt_started hik hk)
  dated date hfirst hlast := by
    have hself := h.period_ended (Nat.zero_le n)
    rw [ended_zero] at hself
    have hsteady := h.period_ended (Nat.le_refl n)
    have hday := (hsteady.seconds_nextRunAfter (h.regular_ended n).nanos_lt j.time).2.1
    rw [← h.wall_started (Nat.le_refl n)] at hday
    exact h.period.exists_shown hself h.regular.nanos_lt (h.isNext_started (Nat.le_refl n)).shows
      (h.offsetAt_started (Nat.le_refl n)) (by omega) hfirst hlast
  leftOut date u hreading hstart hu hdates := by
    have hbefore : ¬ (j.started wait s n).clock.wall < u :=
      fun hlt => Instant.lt_irrefl _ (Instant.lt_trans hlt hu)
    obtain ⟨i, hi, rfl⟩ | hrunning :=
      h.started_or_running ⟨date, hreading⟩ hstart (Nat.le_refl n) hbefore
    · exact absurd (Seoul.dateAt_of_reading? hreading) (hdates i hi)
    · exact hrunning

/-- **A daily job is run once a day.** While the offset of Seoul does not change, the next run is the
first instant after now at which the time is shown, at most a day away, and away as long as is waited
unless now is within a leap second. So a job whose waits take exactly the time asked for keeps to its
schedule, however long its tasks take. -/
theorem runs_daily (time : TimeOfDay) (htime : time.nanos < 1000000000) :
    (∀ now : Instant, now.nanos < 2000000000 → Seoul.Steady now now →
      Seoul.IsNext now time (Seoul.nextRunAfter now time) ∧
        (Seoul.nextRunAfter now time).since now ≤ Instant.dayNanos ∧
        (now.Regular → (Seoul.waitForNext now time : Int) =
          (Seoul.nextRunAfter now time).totalNanos - now.totalNanos)) ∧
    ∀ (wait : Nat → Act σ Unit) (job : String) (task : Act σ Unit) (s : Session σ) (n : Nat),
      let j : DailyJob σ := ⟨job, time, task⟩
      Exact wait → TakesTime task → s.clock.wall.Regular →
      Seoul.Steady s.clock.wall (j.ended wait s n).clock.wall →
      KeepsSchedule time s.clock.wall (fun k => (j.started wait s k).clock.wall)
        (fun k => (j.ended wait s k).clock.wall) n := by
  refine ⟨fun now hnow hsteady => ⟨hsteady.isNext_nextRunAfter hnow time,
    hsteady.since_nextRunAfter_le hnow htime, fun hregular =>
      (hsteady.waitForNext_eq hregular htime).1⟩, ?_⟩
  intro wait job task s n j hwait htask hregular hperiod
  exact DailyJob.Steady.keepsSchedule (j := j) ⟨hwait, htask, htime, hregular, hperiod⟩

/-- The time of the collection where none is set, half past six in the evening. -/
def evening : TimeOfDay := JobSettings.start.collectionTime

/-- A task whose runs take the times that stand in the world. -/
def timedTask : Act (List Nat) Unit := do
  let nanos ← Act.onWorld fun times => (times.headD 0, times.tail)
  Act.pass nanos

/-- Eight in the evening of 2024-03-04. The second of the runs to come takes more than a day. -/
def marchEvening : Session (List Nat) :=
  ⟨[0, 100000000000000], ⟨⟨1709550000, 0⟩, 0⟩, []⟩

/-- The evenings of the 5th, the 6th and the 8th; that of the 7th is left out. -/
theorem runs_daily_marchEvening :
    let j : DailyJob (List Nat) := ⟨"daily", evening, timedTask⟩
    Seoul.waitForNext marchEvening.clock.wall evening = 81000000000000 ∧
      Seoul.IsNext marchEvening.clock.wall evening ⟨1709631000, 0⟩ ∧
      KeepsSchedule evening marchEvening.clock.wall
        (fun k => (j.started Act.pass marchEvening k).clock.wall)
        (fun k => (j.ended Act.pass marchEvening k).clock.wall) 2 ∧
      (List.range 3).map (fun k => (j.started Act.pass marchEvening k).clock.wall) =
        [⟨1709631000, 0⟩, ⟨1709717400, 0⟩, ⟨1709890200, 0⟩] := by
  intro j
  have hnext : Seoul.nextRunAfter marchEvening.clock.wall evening = ⟨1709631000, 0⟩ := by
    decide +kernel
  have hended : (j.ended Act.pass marchEvening 2).clock.wall = ⟨1709817400, 0⟩ := by decide +kernel
  obtain ⟨hfirst, hruns⟩ := runs_daily (σ := List Nat) evening (by decide)
  obtain ⟨hisNext, -, hwait⟩ := hfirst marchEvening.clock.wall (by decide)
    (Seoul.steady_of_utc_le (by decide) (by decide) (by decide))
  rw [hnext] at hisNext hwait
  refine ⟨?_, hisNext, ?_, by decide +kernel⟩
  · have hnanos := hwait (by change 0 < 1000000000; decide)
    have haway : Instant.totalNanos ⟨1709631000, 0⟩ - marchEvening.clock.wall.totalNanos =
        81000000000000 := by decide
    omega
  · refine hruns Act.pass "daily" timedTask marchEvening 2 exact_pass
      (fun s => Clock.later_advance _ _) (by change 0 < 1000000000; decide) ?_
    rw [hended]
    exact Seoul.steady_of_utc_le (by decide) (by decide) (by decide)

/-- Nine in the morning. -/
def morning : TimeOfDay := { evening with seconds := 32400, inDay := by decide }

/-- The middle of the leap second with which 2016 ended. -/
def leapSecond : Instant := ⟨1483228799, 1500000000⟩

/-- In a leap second a next run that is half a second away is counted as half a second past, and then
nothing is waited for. -/
theorem not_waited_leapSecond :
    Seoul.Steady leapSecond leapSecond ∧ leapSecond.nanos < 2000000000 ∧
      morning.nanos < 1000000000 ∧
      Seoul.IsNext leapSecond morning (Seoul.nextRunAfter leapSecond morning) ∧
      (Seoul.nextRunAfter leapSecond morning).since leapSecond = -500000000 ∧
      Seoul.waitForNext leapSecond morning = 0 := by
  have hsteady : Seoul.Steady leapSecond leapSecond :=
    Seoul.steady_of_utc_le (by decide) (by decide) (by decide)
  exact ⟨hsteady, by decide, by decide, hsteady.isNext_nextRunAfter (by decide) morning,
    by decide +kernel, by decide +kernel⟩

end Schedule

end DailyBars
