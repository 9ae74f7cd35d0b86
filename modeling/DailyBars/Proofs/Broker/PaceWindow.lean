import DailyBars.Proofs.Broker.PaceSlots

/-!
# Slots in a second

How many slots of a pacer may lie within one second. They are an interval apart, so that `n` of them
take `n - 1` intervals, and calls that are made all at once get slots that lie no farther apart
(`Pacing.exists_countIn_eq_iff`). The interval is a second divided by the number of requests, in whole
nanoseconds. It comes out too short wherever the division leaves a rest, and then a second holds at
least one slot more than it should: the pace is kept exactly for the numbers that divide a second
(`Pacing.keepsPace_iff_dvd`).
-/

namespace DailyBars.Pacing

variable {p : Pacing} {times : List Nat} {interval start n : Nat}

/-- The number of slots in the second that begins at a given time. -/
def countIn (start : Nat) (slots : List Nat) : Nat :=
  slots.countP fun t => start ≤ t && t < start + second

/-! ### Few slots in a second -/

/-- Times that are an interval apart and all before a given one leave an interval for each of them but
the last. -/
theorem add_length_mul_lt {a bound : Nat} {rest : List Nat}
    (hapart : (a :: rest).Pairwise fun a b => a + interval ≤ b) (hbound : ∀ t ∈ a :: rest, t < bound) :
    a + rest.length * interval < bound := by
  induction rest generalizing a with
  | nil => simpa using hbound a List.mem_cons_self
  | cons b rest ih =>
      obtain ⟨hfirst, hrest⟩ := List.pairwise_cons.mp hapart
      have hb : a + interval ≤ b := hfirst b List.mem_cons_self
      have hlater := ih hrest fun t ht => hbound t (List.mem_cons_of_mem a ht)
      rw [List.length_cons, Nat.succ_mul]
      omega

/-- **Slots within a second leave an interval for each of them but one.** -/
theorem countIn_slots_mul_lt (p : Pacing) (times : List Nat) (start : Nat) :
    (countIn start (p.slots times) - 1) * p.interval < second := by
  unfold countIn
  rw [List.countP_eq_length_filter]
  have hapart := (pairwise_slots p times).filter fun t => start ≤ t && t < start + second
  have hwithin : ∀ t ∈ (p.slots times).filter fun t => start ≤ t && t < start + second,
      start ≤ t ∧ t < start + second := by
    intro t ht
    simpa using (List.mem_filter.mp ht).2
  generalize (p.slots times).filter _ = chosen at *
  cases chosen with
  | nil =>
      rw [List.length_nil, Nat.zero_sub, Nat.zero_mul]
      decide
  | cons a rest =>
      have hlast := add_length_mul_lt hapart fun t ht => (hwithin t ht).2
      have hfirst := (hwithin a List.mem_cons_self).1
      rw [List.length_cons, Nat.add_sub_cancel]
      omega

/-! ### Calls at once -/

/-- The slots of calls that are all made at the time of the first of them. -/
theorem slots_replicate (interval : Nat) (n now : Nat) :
    (Pacing.mk interval now).slots (List.replicate n 0) =
      (List.range n).map fun i => now + i * interval := by
  induction n generalizing now with
  | zero => rfl
  | succ n ih =>
      rw [List.replicate_succ, slots_cons, List.range_succ_eq_map, List.map_cons, List.map_map]
      have hnext : ((Pacing.mk interval now).reserve 0).2 = ⟨interval, now + interval⟩ := by
        simp [reserve]
      rw [hnext, ih]
      simp [Function.comp_def, Nat.succ_mul, Nat.add_assoc, Nat.add_comm interval]

/-- All of them lie within a second if the last one does. -/
theorem countIn_burst (h : (n - 1) * interval < second) :
    countIn 0 ((Pacing.mk interval 0).slots (List.replicate n 0)) = n := by
  rw [slots_replicate, countIn, List.countP_eq_length.mpr, List.length_map, List.length_range]
  intro t ht
  obtain ⟨i, hi, rfl⟩ := List.mem_map.mp ht
  have hle : i * interval ≤ (n - 1) * interval :=
    Nat.mul_le_mul_right interval (Nat.le_sub_one_of_lt (List.mem_range.mp hi))
  simp only [Nat.zero_add, Nat.zero_le, decide_true, Bool.true_and, decide_eq_true_eq]
  omega

/-! ### The pace -/

/-- **How many slots a second can hold**: those whose distances have room in it. -/
theorem exists_countIn_eq_iff (perSecond n : Nat) :
    (∃ created times start, countIn start (slots (.start perSecond created) times) = n) ↔
      (n - 1) * intervalFor perSecond < second := by
  constructor
  · rintro ⟨created, times, start, rfl⟩
    exact countIn_slots_mul_lt (.start perSecond created) times start
  · intro h
    exact ⟨0, List.replicate n 0, 0, countIn_burst h⟩

/-- A pacer for a number of requests a second never grants more in any second. -/
def KeepsPace (perSecond : Nat) : Prop :=
  ∀ created times start, countIn start (slots (.start perSecond created) times) ≤ max perSecond 1

/-- One more than the requests of a second has no room if their intervals fill it. -/
theorem keepsPace_iff_second_le (perSecond : Nat) :
    KeepsPace perSecond ↔ second ≤ max perSecond 1 * intervalFor perSecond := by
  constructor
  · intro h
    refine Nat.not_lt.mp fun hlt => ?_
    obtain ⟨created, times, start, hcount⟩ :=
      (exists_countIn_eq_iff perSecond (max perSecond 1 + 1)).mpr hlt
    have hkept := h created times start
    omega
  · intro h created times start
    refine Nat.not_lt.mp fun hlt => ?_
    have hroom := countIn_slots_mul_lt (.start perSecond created) times start
    have hle : max perSecond 1 ≤ countIn start (slots (.start perSecond created) times) - 1 := by
      omega
    have hmul := Nat.mul_le_mul_right (intervalFor perSecond) hle
    exact absurd (Nat.lt_of_le_of_lt (Nat.le_trans h hmul) hroom) (Nat.lt_irrefl second)

/-- The intervals of the requests of a second fill it exactly if nothing is left over. -/
theorem second_le_iff_dvd (perSecond : Nat) :
    second ≤ max perSecond 1 * intervalFor perSecond ↔ max perSecond 1 ∣ second := by
  have hsplit := Nat.div_add_mod second (max perSecond 1)
  unfold intervalFor
  rw [Nat.dvd_iff_mod_eq_zero]
  omega

/-- **A pacer keeps its pace exactly if a second can be divided evenly.** A second holds as many slots
as their distances leave room for, and that is no more than the number of requests exactly where this
divides a second into whole nanoseconds. -/
theorem keepsPace_iff_dvd (perSecond : Nat) :
    (∀ n, (∃ created times start, countIn start (slots (.start perSecond created) times) = n) ↔
      (n - 1) * intervalFor perSecond < second) ∧
    (KeepsPace perSecond ↔ max perSecond 1 ∣ second) := by
  refine ⟨exists_countIn_eq_iff perSecond, ?_⟩
  rw [keepsPace_iff_second_le, second_le_iff_dvd]

/-- Three requests a second: four calls at once get slots within one. -/
theorem not_keepsPace_three : ¬ KeepsPace 3 := by
  intro h
  have hfour : countIn 0 (slots (.start 3 0) [0, 0, 0, 0]) = 4 := by decide
  have hkept := h 0 [0, 0, 0, 0] 0
  rw [hfour] at hkept
  exact absurd hkept (by decide)

end DailyBars.Pacing
