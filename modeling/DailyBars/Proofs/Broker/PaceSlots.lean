import DailyBars.Broker.Pacing
import Mathlib.Data.Finset.Lattice.Fold
import Mathlib.Order.Lattice.Nat

/-!
# Slots of requests

What a pacer grants to requests one after the other. Each request so far asks for an interval for
every request after it, counted from its own time, and the slot of the last one is the earliest time
that gives all of them what they ask for (`Pacing.getD_slots`). So slots are an interval apart, and
a time in which nobody asks is not made up for later.
-/

namespace DailyBars.Pacing

variable {p : Pacing} {times : List Nat} {now n : Nat}

/-- The pacer after requests at the given times. -/
def after (p : Pacing) (times : List Nat) : Pacing := times.foldl (fun p t => (p.reserve t).2) p

@[simp] theorem slots_nil (p : Pacing) : p.slots [] = [] := rfl

@[simp] theorem slots_cons (p : Pacing) (t : Nat) (ts : List Nat) :
    p.slots (t :: ts) = max p.nextSlot t :: (p.reserve t).2.slots ts := rfl

@[simp] theorem interval_reserve (p : Pacing) (t : Nat) : (p.reserve t).2.interval = p.interval := rfl

@[simp] theorem nextSlot_reserve (p : Pacing) (t : Nat) :
    (p.reserve t).2.nextSlot = max p.nextSlot t + p.interval := rfl

theorem slots_concat (p : Pacing) (times : List Nat) (t : Nat) :
    p.slots (times ++ [t]) = p.slots times ++ [((p.after times).reserve t).1] := by
  induction times generalizing p with
  | nil => rfl
  | cons u us ih =>
      rw [List.cons_append, slots_cons, ih, slots_cons, List.cons_append]
      rfl

theorem after_concat (p : Pacing) (times : List Nat) (t : Nat) :
    p.after (times ++ [t]) = ((p.after times).reserve t).2 :=
  List.foldl_concat ..

/-! ### Distances -/

/-- No slot is earlier than the pacer's next one. -/
theorem nextSlot_le_of_mem_slots {s : Nat} (h : s ∈ p.slots times) : p.nextSlot ≤ s := by
  induction times generalizing p with
  | nil => cases h
  | cons t ts ih =>
      rw [slots_cons] at h
      rcases List.mem_cons.mp h with rfl | h
      · exact Nat.le_max_left ..
      · have hlater := ih h
        rw [nextSlot_reserve] at hlater
        omega

/-- **Of two slots the later one is at least an interval after the other.** -/
theorem pairwise_slots (p : Pacing) (times : List Nat) :
    (p.slots times).Pairwise fun a b => a + p.interval ≤ b := by
  induction times generalizing p with
  | nil => exact .nil
  | cons t ts ih =>
      rw [slots_cons]
      exact .cons (fun s hs => nextSlot_le_of_mem_slots hs) (ih (p.reserve t).2)

/-- A slot is not over when it is asked for. -/
theorem getD_le_slots (p : Pacing) (h : n < times.length) :
    times.getD n 0 ≤ (p.slots times).getD n 0 := by
  induction times generalizing p n with
  | nil => cases h
  | cons t ts ih =>
      cases n with
      | zero => simp
      | succ n => simpa using ih (p.reserve t).2 (Nat.lt_of_succ_lt_succ h)

/-- A slot is an interval after the one before it, or now if that is over. -/
theorem getD_slots_succ (p : Pacing) (h : n + 1 < times.length) :
    (p.slots times).getD (n + 1) 0 =
      max ((p.slots times).getD n 0 + p.interval) (times.getD (n + 1) 0) := by
  induction times generalizing p n with
  | nil => cases h
  | cons t ts ih =>
      cases n with
      | zero =>
          cases ts with
          | nil => cases Nat.lt_of_succ_lt_succ h
          | cons u us => simp
      | succ n => simpa using ih (p.reserve t).2 (Nat.lt_of_succ_lt_succ h)

/-- Slots are as many intervals apart as there are requests from the one to the other. -/
theorem getD_slots_add_le (p : Pacing) {i j : Nat} (hij : i ≤ j) (hj : j < times.length) :
    (p.slots times).getD i 0 + (j - i) * p.interval ≤ (p.slots times).getD j 0 := by
  induction j with
  | zero =>
      obtain rfl : i = 0 := Nat.le_zero.mp hij
      simp
  | succ j ih =>
      rcases Nat.lt_or_ge j i with hlt | hle
      · obtain rfl : i = j + 1 := by omega
        simp
      · have hbefore := ih hle (by omega)
        have hstep := getD_slots_succ p hj
        have hcount : (j + 1 - i) * p.interval = (j - i) * p.interval + p.interval := by
          rw [Nat.succ_sub hle, Nat.succ_mul]
        omega

/-! ### The slot of a request -/

/-- The earliest time that leaves an interval for every request after each of the requests up to
number `n`, counted from the time of that request. -/
def due (interval : Nat) (times : List Nat) (n : Nat) : Nat :=
  (Finset.range (n + 1)).sup fun j => times.getD j 0 + (n - j) * interval

theorem due_cons_zero (interval t : Nat) (ts : List Nat) : due interval (t :: ts) 0 = t := by
  simp [due]

theorem due_cons_succ (interval t : Nat) (ts : List Nat) (n : Nat) :
    due interval (t :: ts) (n + 1) = max (t + (n + 1) * interval) (due interval ts n) := by
  unfold due
  rw [Finset.range_add_one', Finset.sup_insert, Finset.sup_map]
  refine congrArg (max (t + (n + 1) * interval)) (Finset.sup_congr rfl fun j _ => ?_)
  change (t :: ts).getD (j + 1) 0 + (n + 1 - (j + 1)) * interval = _
  rw [List.getD_cons_succ, Nat.add_sub_add_right]

/-- A slot is at its earliest time, unless the pacer was ahead of the requests from the beginning. -/
theorem getD_slots_eq_max (p : Pacing) (h : n < times.length) :
    (p.slots times).getD n 0 = max (p.nextSlot + n * p.interval) (due p.interval times n) := by
  induction times generalizing p n with
  | nil => cases h
  | cons t ts ih =>
      cases n with
      | zero => simp [due_cons_zero]
      | succ n =>
          have hslot := ih (p.reserve t).2 (Nat.lt_of_succ_lt_succ h)
          have hsum : (n + 1) * p.interval = n * p.interval + p.interval := Nat.succ_mul ..
          simp only [slots_cons, List.getD_cons_succ, hslot, interval_reserve, nextSlot_reserve,
            due_cons_succ]
          omega

/-- **Each request has its slot as early as the requests so far allow.** -/
theorem getD_slots (h : n < times.length) (hstart : ∀ t ∈ times, p.nextSlot ≤ t) :
    (p.slots times).getD n 0 = due p.interval times n := by
  rw [getD_slots_eq_max p h]
  cases times with
  | nil => cases h
  | cons t ts =>
      have hfirst : p.nextSlot ≤ t := hstart t List.mem_cons_self
      have hdue : t + n * p.interval ≤ due p.interval (t :: ts) n :=
        Finset.le_sup (f := fun j => (t :: ts).getD j 0 + (n - j) * p.interval)
          (Finset.mem_range.mpr (Nat.succ_pos n))
      omega

end DailyBars.Pacing
