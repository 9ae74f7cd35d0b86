import DailyBars.Calendar.Date

/-!
# The order of dates

Dates are ordered as their day numbers are, so every fact of order is one of integers. The earliest
and the latest of a list of days are members of it that bound all the others, and there is no earlier
date than the first of the calendar, so that going back in time always ends.
-/

namespace DailyBars.Date

variable {a b c : Date} {days : List Date}

theorem le_refl (a : Date) : a ≤ a := Int.le_refl _

theorem le_trans (h : a ≤ b) (h' : b ≤ c) : a ≤ c := Int.le_trans h h'

theorem le_of_lt (h : a < b) : a ≤ b := Int.le_of_lt h

theorem not_le : ¬ a ≤ b ↔ b < a := Int.not_le

theorem not_lt : ¬ a < b ↔ b ≤ a := Int.not_lt

theorem lt_irrefl (a : Date) : ¬ a < a := Int.lt_irrefl _

theorem lt_of_lt_of_le (h : a < b) (h' : b ≤ c) : a < c := Int.lt_of_lt_of_le h h'

theorem lt_of_le_of_lt (h : a ≤ b) (h' : b < c) : a < c := Int.lt_of_le_of_lt h h'

theorem le_antisymm (h : a ≤ b) (h' : b ≤ a) : a = b := Date.ext (Int.le_antisymm h h')

/-- Going back in time ends: the calendar has a first day. -/
theorem lt_wellFounded : WellFounded (fun a b : Date => a < b) := by
  refine Subrelation.wf (fun {a b} h => ?_)
    (InvImage.wf (fun d : Date => (d.dayNumber + 96465292).toNat) Nat.lt_wfRel.wf)
  have ha := a.inCalendar
  have hab := lt_iff.mp h
  change (a.dayNumber + 96465292).toNat < (b.dayNumber + 96465292).toNat
  omega

/-! ### The day before -/

/-- Only the first day of the calendar has none before it. -/
theorem le_of_pred?_eq_none (h : a.pred? = none) (b : Date) : a ≤ b := by
  have hb := b.inCalendar
  have ha := a.inCalendar
  rw [le_iff]
  unfold pred? addDays? ofDayNumber? at h
  split at h
  · cases h
  · omega

theorem pred?_lt (h : a.pred? = some b) : b < a := by
  have := pred?_eq_some.mp h
  rw [lt_iff]
  omega

/-- Between a day and the day before it there is none. -/
theorem lt_iff_le_pred? (h : a.pred? = some b) : c < a ↔ c ≤ b := by
  have := pred?_eq_some.mp h
  rw [lt_iff, le_iff]
  omega

/-! ### The earliest and the latest of a list -/

/-- Choosing between the days of a list one after the other ends at one of them, and what is chosen
bears the relation to all of them that each choice has to its two days. -/
theorem foldl_choice {r : Date → Date → Prop} (refl : ∀ a, r a a)
    (trans : ∀ {a b c}, r a b → r b c → r a c) {choose : Date → Date → Date}
    (either : ∀ a b, choose a b = a ∨ choose a b = b)
    (bound : ∀ a b, r (choose a b) a ∧ r (choose a b) b) (days : List Date) (a : Date) :
    days.foldl choose a ∈ a :: days ∧ ∀ d ∈ a :: days, r (days.foldl choose a) d := by
  induction days generalizing a with
  | nil => simp [refl]
  | cons b rest ih =>
      rw [List.foldl_cons]
      obtain ⟨hm, hr⟩ := ih (choose a b)
      have hc := hr _ List.mem_cons_self
      refine ⟨?_, ?_⟩
      · rcases List.mem_cons.mp hm with hm | hm
        · rw [hm]
          rcases either a b with h | h <;> simp [h]
        · simp [hm]
      · intro d hd
        rcases List.mem_cons.mp hd with rfl | hd
        · exact trans hc (bound d b).1
        · rcases List.mem_cons.mp hd with rfl | hd
          · exact trans hc (bound a d).2
          · exact hr d (List.mem_cons_of_mem _ hd)

theorem foldl_earlier (days : List Date) (a : Date) :
    let m := days.foldl (fun a b => if b < a then b else a) a
    m ∈ a :: days ∧ ∀ d ∈ a :: days, m ≤ d := by
  refine foldl_choice (r := fun a b => a ≤ b) le_refl le_trans ?_ ?_ days a
  · intro a b
    by_cases h : b < a <;> simp [h]
  · intro a b
    by_cases h : b < a
    · simp [h, le_of_lt h, le_refl]
    · simp [h, not_lt.mp h, le_refl]

theorem foldl_later (days : List Date) (a : Date) :
    let m := days.foldl (fun a b => if a ≤ b then b else a) a
    m ∈ a :: days ∧ ∀ d ∈ a :: days, d ≤ m := by
  refine foldl_choice (r := fun a b => b ≤ a) le_refl (fun h h' => le_trans h' h) ?_ ?_ days a
  · intro a b
    by_cases h : a ≤ b <;> simp [h]
  · intro a b
    by_cases h : a ≤ b
    · simp [h, le_refl]
    · simp [h, le_of_lt (not_le.mp h), le_refl]

theorem min?_eq_none_iff : min? days = none ↔ days = [] := by
  cases days <;> simp [min?]

theorem max?_eq_none_iff : max? days = none ↔ days = [] := by
  cases days <;> simp [max?]

theorem min?_mem (h : min? days = some a) : a ∈ days := by
  cases days with
  | nil => cases h
  | cons d rest =>
      cases h
      exact (foldl_earlier rest d).1

theorem min?_le (h : min? days = some a) (hb : b ∈ days) : a ≤ b := by
  cases days with
  | nil => cases hb
  | cons d rest =>
      cases h
      exact (foldl_earlier rest d).2 b hb

theorem le_max? (h : max? days = some a) (hb : b ∈ days) : b ≤ a := by
  cases days with
  | nil => cases hb
  | cons d rest =>
      cases h
      exact (foldl_later rest d).2 b hb

end DailyBars.Date
