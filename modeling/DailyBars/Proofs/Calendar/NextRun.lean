import DailyBars.Calendar.Seoul
import DailyBars.Proofs.Calendar.Elapsed

/-!
# The next run

While its offset does not change, the clock of Seoul shows every time of day once a day. In such a
steady period the next run is the first instant after now at which the time is shown
(`Seoul.Steady.isNext_nextRunAfter`), at most a day away, and the wait for it is as long as it is
away, unless now is within a leap second (`Seoul.Steady.waitForNext_eq`).

The dates around an instant are found with each of the offsets that were ever in force. They lie so
close to each other that 48 hours of one offset leave only one candidate for each reading.
-/

namespace DailyBars

/-- The nanoseconds of a day. -/
def Instant.dayNanos : Int := 86400000000000

theorem Instant.lt_iff {t u : Instant} :
    t < u ↔ t.seconds < u.seconds ∨ t.seconds = u.seconds ∧ t.nanos < u.nanos := by
  change t.before u = true ↔ _
  simp only [before, Bool.or_eq_true, Bool.and_eq_true, decide_eq_true_eq]

theorem Instant.Regular.nanos_lt {t : Instant} (h : t.Regular) : t.nanos < 2000000000 :=
  Nat.lt_trans h (by decide)

namespace Seoul

variable {now first last t u : Instant} {time : TimeOfDay} {r : WallReading}

/-! ### What is shown, and when next -/

/-- On some date the clock of Seoul shows the time at the instant. -/
def ShowsTime (t : Instant) (time : TimeOfDay) : Prop := ∃ date, reading? t = some ⟨date, time⟩

/-- The first instant after `now` at which the clock of Seoul shows the time. -/
structure IsNext (now : Instant) (time : TimeOfDay) (t : Instant) : Prop where
  later : now < t
  shows : ShowsTime t time
  first : ∀ u, now < u → ShowsTime u time → t = u ∨ t < u

theorem reading?_eq_some : reading? t = some r ↔ t = r.instantAt (offsetAt t) :=
  Instant.reading?_eq_some

theorem seconds_of_reading? (h : reading? t = some r) :
    t.seconds = r.date.dayNumber * 86400 + r.time.seconds - offsetAt t :=
  congrArg Instant.seconds (reading?_eq_some.mp h)

/-- What is shown at an instant is the date and the time there. -/
theorem dateAt_of_reading? (h : reading? t = some r) : dateAt t = r.date := by
  unfold dateAt
  rw [h]

theorem nanos_of_showsTime (h : ShowsTime t time) : t.nanos = time.nanos := by
  obtain ⟨date, h⟩ := h
  rw [reading?_eq_some.mp h]
  rfl

theorem IsNext.regular (h : IsNext now time t) (htime : time.nanos < 1000000000) : t.Regular := by
  unfold Instant.Regular
  rw [nanos_of_showsTime h.shows]
  exact htime

/-- At one offset the dates on which a time is shown are in the order of the instants. -/
theorem dateAt_lt_of_lt (ht : ShowsTime t time) (hu : ShowsTime u time)
    (hoffset : offsetAt t = offsetAt u) (h : t < u) : dateAt t < dateAt u := by
  obtain ⟨date, ht⟩ := ht
  obtain ⟨date', hu⟩ := hu
  have ht' := reading?_eq_some.mp ht
  have hu' := reading?_eq_some.mp hu
  rw [dateAt_of_reading? ht, dateAt_of_reading? hu, Date.lt_iff]
  rw [ht', hu', hoffset, Instant.lt_iff] at h
  simp only [WallReading.instantAt, WallReading.seconds] at h ⊢
  omega

/-! ### Steady periods -/

/-- From 48 hours before the first instant to 48 hours after the last one the offset does not change,
and the calendar does not end. -/
def Steady (first last : Instant) : Prop :=
  ∀ u : Instant, u.Regular → first.totalNanos - 2 * Instant.dayNanos ≤ u.totalNanos →
    u.totalNanos ≤ last.totalNanos + 2 * Instant.dayNanos → u.inCalendar ∧ offsetAt u = offsetAt first

/-- What is in force depends on the second alone, so that no leap second matters. -/
theorem Steady.at_second (h : Steady first last) (hfirst : first.nanos < 2000000000)
    (hlow : first.seconds - 172798 ≤ u.seconds) (hhigh : u.seconds ≤ last.seconds + 172800) :
    u.inCalendar ∧ offsetAt u = offsetAt first := by
  refine h ⟨u.seconds, 0⟩ (by change 0 < 1000000000; decide) ?_ ?_
  · simp only [Instant.totalNanos, Instant.dayNanos]
    omega
  · simp only [Instant.totalNanos, Instant.dayNanos]
    omega

/-- A part of a steady period is steady. -/
theorem Steady.part (h : Steady first last) (hnow : now.Regular)
    (hlow : first.totalNanos ≤ now.totalNanos) (hhigh : now.totalNanos ≤ last.totalNanos) :
    Steady now now := by
  have hday : 0 < Instant.dayNanos := by decide
  have hoffset := (h now hnow (by omega) (by omega)).2
  intro u hu hlow' hhigh'
  rw [hoffset]
  exact h u hu (by omega) (by omega)

/-- Behind the last of the eras it is the one in force. -/
theorem inForce_of_forall_le {s : Int} (list : List Era) (current : Int × String)
    (h : ∀ e ∈ list, e.since ≤ s) :
    inForce current s list = (list.getLast?.map fun e => (e.offset, e.name)).getD current := by
  induction list generalizing current with
  | nil => rfl
  | cons e rest ih =>
      unfold inForce
      rw [if_pos (h e List.mem_cons_self), ih _ fun e' he' => h e' (List.mem_cons_of_mem _ he'),
        List.getLast?_cons]
      cases rest.getLast? <;> rfl

theorem since_le_of_mem_eras : ∀ e ∈ eras, e.since ≤ utc 1988 10 8 17 0 := by decide

/-- Since the last summer time was over Seoul is nine hours ahead of UTC. -/
theorem offsetAt_eq_nine (h : utc 1988 10 8 17 0 ≤ t.seconds) : offsetAt t = nine := by
  unfold offsetAt zoneAt
  rw [inForce_of_forall_le eras _ fun e he => Int.le_trans (since_le_of_mem_eras e he) h]
  decide

/-- From two days later on, and as long as the calendar reaches, every period is steady. -/
theorem steady_of_utc_le (hfirst : utc 1988 10 10 17 0 ≤ first.seconds)
    (hnanos : last.nanos < 2000000000) (hlast : last.seconds / 86400 < Date.lastDay - 2) :
    Steady first last := by
  have hutc : utc 1988 10 10 17 0 = utc 1988 10 8 17 0 + 172800 := by decide
  have hpositive : 0 < utc 1988 10 8 17 0 := by decide
  have hcalendar : Date.firstDay ≤ 0 := by decide
  intro u hu hlow hhigh
  unfold Instant.Regular at hu
  simp only [Instant.totalNanos, Instant.dayNanos] at hlow hhigh
  have hsince : utc 1988 10 8 17 0 ≤ u.seconds := by omega
  refine ⟨?_, ?_⟩
  · simp only [Instant.inCalendar, Bool.and_eq_true, decide_eq_true_eq]
    omega
  · rw [offsetAt_eq_nine hsince, offsetAt_eq_nine (by omega)]

/-! ### One candidate for each reading -/

/-- The offsets differ by an hour and a half at most. -/
theorem offset_bounds (t : Instant) : localMean ≤ offsetAt t ∧ offsetAt t ≤ ten := by
  have hall : ∀ o ∈ offsets, localMean ≤ o ∧ o ≤ ten := by decide
  exact hall _ (offsetAt_mem_offsets t)

namespace Steady

/-- A reading that is less than a day away is shown at one instant. -/
theorem earliest?_eq (h : Steady now now) (hnow : now.nanos < 2000000000)
    (hlow : now.seconds - 86400 ≤ r.seconds - offsetAt now)
    (hhigh : r.seconds - offsetAt now ≤ now.seconds + 86400) :
    earliest? r = some (r.instantAt (offsetAt now)) := by
  have hbounds := offset_bounds now
  have hten : ten = localMean + 5528 := by decide
  have hsingle : single? r = some (r.instantAt (offsetAt now)) := by
    refine single?_eq_some_iff.mpr fun u => ⟨?_, ?_⟩
    · rintro ⟨-, hreading⟩
      have hu := reading?_eq_some.mp hreading
      have hseconds : u.seconds = r.seconds - offsetAt u := congrArg Instant.seconds hu
      have hbounds' := offset_bounds u
      have hoffset := (h.at_second (u := u) hnow (by omega) (by omega)).2
      rw [hu, hoffset]
    · rintro rfl
      obtain ⟨hreach, hoffset⟩ := h.at_second (u := r.instantAt (offsetAt now)) hnow
        (by change _ ≤ r.seconds - offsetAt now; omega)
        (by change r.seconds - offsetAt now ≤ _; omega)
      exact ⟨hreach, reading?_eq_some.mpr (by rw [hoffset])⟩
  unfold earliest?
  rw [instantsShowing_of_single? hsingle]
  rfl

/-- The calendar holds the dates that Seoul shows within a day. -/
theorem inCalendar_day (h : Steady now now) (hnow : now.nanos < 2000000000) (days : Int)
    (hlow : 0 ≤ days) (hhigh : days ≤ 1) :
    -96465292 ≤ (now.seconds + offsetAt now) / 86400 + days ∧
      (now.seconds + offsetAt now) / 86400 + days ≤ 95026236 := by
  have hbounds := offset_bounds now
  have hmean : localMean = 30472 := rfl
  have hten : ten = 36000 := rfl
  have hreach := (h.at_second (u := ⟨now.seconds + offsetAt now + days * 86400, 0⟩) hnow
    (by dsimp only; omega) (by dsimp only; omega)).1
  simp only [Instant.inCalendar, Bool.and_eq_true, decide_eq_true_eq] at hreach
  unfold Date.firstDay Date.lastDay at hreach
  omega

theorem exists_reading (h : Steady now now) (hnow : now.nanos < 2000000000) :
    ∃ r, reading? now = some r := by
  have hday := h.inCalendar_day hnow 0 (Int.le_refl 0) (by decide)
  refine ⟨⟨⟨(now.seconds + offsetAt now) / 86400, by omega⟩,
    ⟨((now.seconds + offsetAt now) % 86400).toNat, now.nanos, by omega, hnow⟩⟩, ?_⟩
  refine reading?_eq_some.mpr ?_
  unfold WallReading.instantAt WallReading.seconds
  obtain ⟨seconds, nanos⟩ := now
  rw [Instant.mk.injEq]
  dsimp only
  exact ⟨by omega, rfl⟩

/-- On each date between the first instant and one that shows the time the time is shown. -/
theorem exists_shown (h : Steady first last) (hself : Steady first first)
    (hfirst : first.nanos < 2000000000) (ht : ShowsTime t time)
    (hoffset : offsetAt t = offsetAt first) (hlast : t.seconds ≤ last.seconds + 172800) {date : Date}
    (hlow : dateAt first < date) (hhigh : date < dateAt t) :
    ∃ u, reading? u = some ⟨date, time⟩ ∧ first < u ∧ u < t := by
  obtain ⟨r, hr⟩ := hself.exists_reading hfirst
  obtain ⟨date', ht⟩ := ht
  rw [dateAt_of_reading? hr, Date.lt_iff] at hlow
  rw [dateAt_of_reading? ht, Date.lt_iff] at hhigh
  have hseconds := seconds_of_reading? hr
  have ht' := seconds_of_reading? ht
  have hshown := r.time.inDay
  rw [hoffset] at ht'
  dsimp only at ht' hhigh
  refine ⟨(⟨date, time⟩ : WallReading).instantAt (offsetAt first), ?_, ?_, ?_⟩
  · have hreach := h.at_second
      (u := (⟨date, time⟩ : WallReading).instantAt (offsetAt first)) hfirst
      (by simp only [WallReading.instantAt, WallReading.seconds]; omega)
      (by simp only [WallReading.instantAt, WallReading.seconds]; omega)
    exact reading?_eq_some.mpr (by rw [hreach.2])
  · rw [Instant.lt_iff]
    simp only [WallReading.instantAt, WallReading.seconds]
    omega
  · rw [Instant.lt_iff]
    simp only [WallReading.instantAt, WallReading.seconds]
    omega

/-! ### The next run -/

/-- The next run is today's where that is still to come, and otherwise tomorrow's. -/
theorem nextRunAfter_cases (h : Steady now now) (hnow : now.nanos < 2000000000)
    (time : TimeOfDay) :
    ∃ r date, reading? now = some r ∧
      nextRunAfter now time = (⟨date, time⟩ : WallReading).instantAt (offsetAt now) ∧
      (date = r.date ∧ now < nextRunAfter now time ∨
        date.dayNumber = r.date.dayNumber + 1 ∧
          ¬ now < (⟨r.date, time⟩ : WallReading).instantAt (offsetAt now)) := by
  obtain ⟨r, hr⟩ := h.exists_reading hnow
  have hseconds := seconds_of_reading? hr
  have hshown := r.time.inDay
  have hset := time.inDay
  have htoday : earliest? ⟨r.date, time⟩ = _ :=
    h.earliest?_eq hnow (by simp only [WallReading.seconds]; omega)
      (by simp only [WallReading.seconds]; omega)
  by_cases hlater : now < (⟨r.date, time⟩ : WallReading).instantAt (offsetAt now)
  · have hnext : nextRunAfter now time =
        (⟨r.date, time⟩ : WallReading).instantAt (offsetAt now) := by
      unfold nextRunAfter
      simp only [dateAt_of_reading? hr, htoday, Option.filter, hlater, decide_true, if_true]
    exact ⟨r, r.date, hr, hnext, .inl ⟨rfl, by rw [hnext]; exact hlater⟩⟩
  · have hreach := h.inCalendar_day hnow 1 (by decide) (by decide)
    have hpassed := mt Instant.lt_iff.mpr hlater
    simp only [WallReading.instantAt, WallReading.seconds] at hpassed
    obtain ⟨date, hdate⟩ : ∃ date, r.date.addDays? 1 = some date :=
      ⟨⟨r.date.dayNumber + 1, by omega⟩, Date.ofDayNumber?_eq_some.mpr rfl⟩
    have hnumber : date.dayNumber = r.date.dayNumber + 1 := Date.ofDayNumber?_eq_some.mp hdate
    have htomorrow : earliest? ⟨date, time⟩ = _ :=
      h.earliest?_eq hnow (by simp only [WallReading.seconds]; omega)
        (by simp only [WallReading.seconds]; omega)
    have hnext : nextRunAfter now time = (⟨date, time⟩ : WallReading).instantAt (offsetAt now) := by
      unfold nextRunAfter
      simp only [dateAt_of_reading? hr, htoday, Option.filter, hlater, decide_false, hdate,
        htomorrow, Option.getD_some, Bool.false_eq_true, if_false]
    exact ⟨r, date, hr, hnext, .inr ⟨hnumber, hlater⟩⟩

/-- The next run is a day away at most. -/
theorem seconds_nextRunAfter (h : Steady now now) (hnow : now.nanos < 2000000000)
    (time : TimeOfDay) :
    now < nextRunAfter now time ∧ (nextRunAfter now time).seconds ≤ now.seconds + 86400 ∧
      ((nextRunAfter now time).seconds = now.seconds + 86400 → time.nanos ≤ now.nanos) := by
  obtain ⟨r, date, hr, hnext, hcases⟩ := h.nextRunAfter_cases hnow time
  have hseconds := seconds_of_reading? hr
  have hshown := r.time.inDay
  have hset := time.inDay
  rw [hnext] at hcases ⊢
  obtain ⟨rfl, hlater⟩ | ⟨htomorrow, hpassed⟩ := hcases
  · refine ⟨hlater, ?_⟩
    simp only [WallReading.instantAt, WallReading.seconds]
    omega
  · rw [Instant.lt_iff] at hpassed ⊢
    simp only [WallReading.instantAt, WallReading.seconds] at hpassed ⊢
    omega

/-- **The next run is the first instant after now at which Seoul shows the time.** -/
theorem isNext_nextRunAfter (h : Steady now now) (hnow : now.nanos < 2000000000)
    (time : TimeOfDay) : IsNext now time (nextRunAfter now time) := by
  obtain ⟨hlater, hday, -⟩ := h.seconds_nextRunAfter hnow time
  obtain ⟨r, date, hr, hnext, hcases⟩ := h.nextRunAfter_cases hnow time
  have hafter := Instant.lt_iff.mp hlater
  have hset := time.inDay
  refine ⟨hlater, ⟨date, ?_⟩, fun u hu hshows => ?_⟩
  · have hoffset := (h.at_second (u := nextRunAfter now time) hnow (by omega) (by omega)).2
    exact reading?_eq_some.mpr (by rw [hoffset, hnext])
  · obtain ⟨date', hreading⟩ := hshows
    have hu' := Instant.lt_iff.mp hu
    by_cases hfar : now.seconds + 172800 < u.seconds
    · exact .inr (Instant.lt_iff.mpr (.inl (by omega)))
    · -- Within 48 hours the offset is that of now, and the dates are in the order of the instants.
      have hoffset := (h.at_second (u := u) hnow (by omega) (by omega)).2
      obtain rfl : u = (⟨date', time⟩ : WallReading).instantAt (offsetAt now) := by
        rw [← hoffset]
        exact reading?_eq_some.mp hreading
      have hseconds := seconds_of_reading? hr
      have hshown := r.time.inDay
      rw [hnext, Instant.lt_iff]
      simp only [WallReading.instantAt, WallReading.seconds, Instant.mk.injEq, and_true] at hu' ⊢
      have hdate : r.date.dayNumber ≤ date'.dayNumber := by omega
      obtain ⟨rfl, -⟩ | ⟨htomorrow, hpassed⟩ := hcases
      · omega
      · have hnot := mt Instant.lt_iff.mpr hpassed
        simp only [WallReading.instantAt, WallReading.seconds] at hnot
        omega

/-- Whether or not now is within a leap second, the next run is 24 hours away at most. -/
theorem since_nextRunAfter_le (h : Steady now now) (hnow : now.nanos < 2000000000)
    (htime : time.nanos < 1000000000) :
    (nextRunAfter now time).since now ≤ Instant.dayNanos := by
  obtain ⟨hlater, hday, hfull⟩ := h.seconds_nextRunAfter hnow time
  have hafter := Instant.lt_iff.mp hlater
  have hnanos := nanos_of_showsTime (h.isNext_nextRunAfter hnow time).shows
  generalize nextRunAfter now time = t at *
  unfold Instant.since Instant.totalNanos Instant.dayNanos
  dsimp only
  split
  · omega
  · split <;> omega

/-- **The wait is as long as the next run is away**, if now is not within a leap second. -/
theorem waitForNext_eq (h : Steady now now) (hnow : now.Regular) (htime : time.nanos < 1000000000) :
    (waitForNext now time : Int) = (nextRunAfter now time).totalNanos - now.totalNanos ∧
      0 < waitForNext now time ∧ (waitForNext now time : Int) ≤ Instant.dayNanos := by
  have hnext := h.isNext_nextRunAfter hnow.nanos_lt time
  have hday := h.since_nextRunAfter_le hnow.nanos_lt htime
  have hregular := hnext.regular htime
  have hlater := (Instant.lt_iff_totalNanos_lt hnow hregular).mp hnext.later
  unfold waitForNext
  rw [Instant.since_eq_sub hregular hnow] at hday ⊢
  omega

end Steady

end Seoul

end DailyBars
