import DailyBars.Calendar.Date

/-!
# Year, month and day

Every day number has a reading as year, month and day, and the reading gives the number back. An era
of 400 years has 146097 days. Within it the years begin in March, so that a year is 365 days and, if
its last month has a leap day, one more; the months are cut from the day of such a year.
-/

namespace DailyBars

namespace CivilDate

variable {doe doy : Int}

/-! ### Years of an era -/

/-- The year of a day of an era, counted from March. -/
def yearOfEra (doe : Int) : Int := (doe - doe / 1460 + doe / 36524 - doe / 146096) / 365

/-- The day of such a year. -/
def dayOfYear (doe : Int) : Int :=
  doe - (365 * yearOfEra doe + yearOfEra doe / 4 - yearOfEra doe / 100)

/-- A century has 36524 days, but for the last one, which has one more. -/
theorem centuryOfEra (h : 0 ≤ doe) (h' : doe < 146097) :
    yearOfEra doe / 100 = doe / 36524 - doe / 146096 := by
  have hcentury : doe / 36524 = 0 ∨ doe / 36524 = 1 ∨ doe / 36524 = 2 ∨ doe / 36524 = 3 ∨
      doe / 36524 = 4 := by omega
  unfold yearOfEra
  rcases hcentury with hc | hc | hc | hc | hc <;> omega

/-- Four years have 1460 days, and their leap day is the last of them. -/
theorem fourYearsOfEra (h : 0 ≤ doe) (h' : doe < 146097) :
    yearOfEra doe / 4 = doe / 1460 ∨ yearOfEra doe / 4 + 1 = doe / 1460 := by
  unfold yearOfEra
  omega

theorem yearOfEra_bounds (h : 0 ≤ doe) (h' : doe < 146097) :
    0 ≤ yearOfEra doe ∧ yearOfEra doe < 400 := by
  unfold yearOfEra
  omega

theorem dayOfYear_bounds (h : 0 ≤ doe) (h' : doe < 146097) :
    0 ≤ dayOfYear doe ∧ dayOfYear doe ≤ 365 := by
  have hcentury := centuryOfEra h h'
  have hfour := fourYearsOfEra h h'
  unfold dayOfYear
  unfold yearOfEra at *
  omega

/-- A year with 366 days ends with the February of a leap year. -/
theorem isLeapYear_of_dayOfYear (h : 0 ≤ doe) (h' : doe < 146097) (hdoy : dayOfYear doe = 365)
    (era : Int) : isLeapYear (yearOfEra doe + era * 400 + 1) := by
  have hcentury := centuryOfEra h h'
  have hfour := fourYearsOfEra h h'
  have hbounds := yearOfEra_bounds h h'
  have hday : doe = 365 * yearOfEra doe + yearOfEra doe / 4 - yearOfEra doe / 100 + 365 := by
    unfold dayOfYear at hdoy
    omega
  have hyear : 365 * yearOfEra doe ≤ doe - doe / 1460 + doe / 36524 - doe / 146096 ∧
      doe - doe / 1460 + doe / 36524 - doe / 146096 < 365 * yearOfEra doe + 365 := by
    unfold yearOfEra
    omega
  generalize yearOfEra doe = y at *
  have hlast : y % 4 = 3 := by
    have hrest : y % 4 = 0 ∨ y % 4 = 1 ∨ y % 4 = 2 ∨ y % 4 = 3 := by omega
    rcases hrest with hr | hr | hr | hr <;> omega
  have hleap : (y + 1) % 100 ≠ 0 ∨ (y + 1) % 400 = 0 := by
    have hcases : doe / 36524 = 0 ∨ doe / 36524 = 1 ∨ doe / 36524 = 2 ∨ doe / 36524 = 3 ∨
        doe / 36524 = 4 := by omega
    rcases hcases with hc | hc | hc | hc | hc <;> omega
  simp only [isLeapYear, Bool.and_eq_true, Bool.or_eq_true, decide_eq_true_eq]
  omega

/-! ### Months of a year -/

/-- The month of a day of a year that begins in March. -/
def monthOfYear (doy : Int) : Nat :=
  let mp := (5 * doy + 2) / 153
  (if mp < 10 then mp + 3 else mp - 9).toNat

/-- The day of the month. -/
def dayOfMonth (doy : Int) : Nat := (doy - (153 * ((5 * doy + 2) / 153) + 2) / 5 + 1).toNat

theorem ofDayNumber_eq (n : Int) :
    let doe := (n + 719468) % 146097
    let month := monthOfYear (dayOfYear doe)
    ofDayNumber n = ⟨yearOfEra doe + (n + 719468) / 146097 * 400 + (if month ≤ 2 then 1 else 0), month,
      dayOfMonth (dayOfYear doe)⟩ := rfl

/-- The number of the month, counted from March. -/
theorem monthOfYear_shift (h : 0 ≤ doy) (h' : doy ≤ 365) :
    (((monthOfYear doy + 9) % 12 : Nat) : Int) = (5 * doy + 2) / 153 := by
  unfold monthOfYear
  dsimp only
  split <;> omega

theorem dayOfMonth_eq (doy : Int) :
    (dayOfMonth doy : Int) = doy - (153 * ((5 * doy + 2) / 153) + 2) / 5 + 1 := by
  unfold dayOfMonth
  omega

/-- The day of a month is one of its days. -/
theorem isValid_of_dayOfYear {year : Int} (h : 0 ≤ doy) (h' : doy ≤ 365)
    (hleap : doy = 365 → isLeapYear (year + 1)) :
    isValid ⟨year + (if monthOfYear doy ≤ 2 then 1 else 0), monthOfYear doy, dayOfMonth doy⟩ := by
  have hday := dayOfMonth_eq doy
  have hmonth : (monthOfYear doy : Int) = (5 * doy + 2) / 153 + 3 ∧ doy ≤ 305 ∨
      (monthOfYear doy : Int) = (5 * doy + 2) / 153 - 9 ∧ 306 ≤ doy := by
    unfold monthOfYear
    dsimp only
    split <;> omega
  generalize monthOfYear doy = m at *
  generalize dayOfMonth doy = day at *
  have hlength : day ≤ daysInMonth (year + if m ≤ 2 then 1 else 0) m := by
    unfold daysInMonth
    by_cases hfebruary : m = 2
    · have hyear : (year + if m ≤ 2 then 1 else 0) = year + 1 := by rw [if_pos (Nat.le_of_eq hfebruary)]
      rw [if_pos hfebruary, hyear]
      split
      · omega
      · -- Without a leap day the year has no day 365.
        rename_i hcommon
        have hlast : doy ≠ 365 := fun h => hcommon (hleap h)
        omega
    · rw [if_neg hfebruary]
      simp only [Bool.or_eq_true, decide_eq_true_eq]
      split <;> omega
  simp only [isValid, Bool.and_eq_true, decide_eq_true_eq]
  omega

/-- **The reading of a day number has that number.** -/
theorem dayNumber_ofDayNumber (n : Int) : (ofDayNumber n).dayNumber = n := by
  rw [ofDayNumber_eq]
  have hdoe : 0 ≤ (n + 719468) % 146097 := Int.emod_nonneg _ (by decide)
  have hdoe' : (n + 719468) % 146097 < 146097 := Int.emod_lt_of_pos _ (by decide)
  have hsplit := Int.mul_ediv_add_emod (n + 719468) 146097
  generalize (n + 719468) % 146097 = doe at *
  obtain ⟨hyear, hyear'⟩ := yearOfEra_bounds hdoe hdoe'
  obtain ⟨hdoy, hdoy'⟩ := dayOfYear_bounds hdoe hdoe'
  have hday := dayOfMonth_eq (dayOfYear doe)
  have hmonth := monthOfYear_shift hdoy hdoy'
  have hdef : dayOfYear doe = doe - (365 * yearOfEra doe + yearOfEra doe / 4 - yearOfEra doe / 100) := rfl
  generalize yearOfEra doe = y at *
  have hmarch (year : Int) (month : Nat) :
      (if month ≤ 2 then year + (if month ≤ 2 then 1 else 0) - 1
        else year + (if month ≤ 2 then 1 else 0)) = year := by
    split <;> omega
  have hera : (y + (n + 719468) / 146097 * 400) / 400 = (n + 719468) / 146097 := by omega
  have hyearOf : (y + (n + 719468) / 146097 * 400) % 400 = y := by omega
  unfold dayNumber
  dsimp only
  rw [hmonth, hday, hmarch, hera, hyearOf]
  omega

/-- A reading is one of a day that there is. -/
theorem isValid_ofDayNumber (n : Int) : (ofDayNumber n).isValid := by
  rw [ofDayNumber_eq]
  have hdoe : 0 ≤ (n + 719468) % 146097 := Int.emod_nonneg _ (by decide)
  have hdoe' : (n + 719468) % 146097 < 146097 := Int.emod_lt_of_pos _ (by decide)
  generalize (n + 719468) % 146097 = doe at *
  obtain ⟨hdoy, hdoy'⟩ := dayOfYear_bounds hdoe hdoe'
  have hleap := isLeapYear_of_dayOfYear hdoe hdoe'
  generalize dayOfYear doe = doy at *
  generalize yearOfEra doe = y at *
  exact isValid_of_dayOfYear hdoy hdoy' fun hlast => hleap hlast _

/-! ### No two readings have one number -/

section Inverse

variable {c c' : CivilDate}

/-- The year that begins with the March before a day. -/
def marchYear (c : CivilDate) : Int := if c.month ≤ 2 then c.year - 1 else c.year

/-- The months since that March. -/
def monthsSinceMarch (c : CivilDate) : Int := ((c.month + 9) % 12 : Nat)

/-- The days since that March. -/
def daysSinceMarch (c : CivilDate) : Int := (153 * c.monthsSinceMarch + 2) / 5 + c.day - 1

/-- The days before a year that begins in March. -/
def daysBefore (y : Int) : Int := 365 * y + y / 4 - y / 100 + y / 400

theorem dayNumber_eq (c : CivilDate) :
    c.dayNumber = daysBefore c.marchYear + c.daysSinceMarch - 719468 := by
  unfold dayNumber daysBefore daysSinceMarch marchYear monthsSinceMarch
  dsimp only
  omega

theorem daysBefore_le {y y' : Int} (h : y ≤ y') : daysBefore y ≤ daysBefore y' := by
  unfold daysBefore
  omega

theorem daysBefore_succ_ge (y : Int) : daysBefore y + 365 ≤ daysBefore (y + 1) := by
  unfold daysBefore
  omega

/-- Only a year that ends with the February of a leap year has 366 days. -/
theorem daysBefore_succ_of_isLeapYear {y : Int} (h : isLeapYear (y + 1)) :
    daysBefore (y + 1) = daysBefore y + 366 := by
  simp only [isLeapYear, Bool.and_eq_true, Bool.or_eq_true, decide_eq_true_eq] at h
  unfold daysBefore
  omega

/-- How many days a month has: the last of the months since March has the fewest. -/
theorem day_bounds (h : c.isValid) : (1 ≤ c.month ∧ c.month ≤ 12) ∧ 1 ≤ c.day ∧ c.day ≤ 31 ∧
    (c.month = 4 ∨ c.month = 6 ∨ c.month = 9 ∨ c.month = 11 → c.day ≤ 30) ∧
    (c.month = 2 → c.day ≤ 28 ∨ c.day = 29 ∧ isLeapYear c.year) := by
  simp only [isValid, Bool.and_eq_true, decide_eq_true_eq] at h
  obtain ⟨⟨⟨hlow, hhigh⟩, hfirst⟩, hlast⟩ := h
  refine ⟨⟨hlow, hhigh⟩, hfirst, ?_⟩
  unfold daysInMonth at hlast
  split at hlast
  · rename_i hfebruary
    split at hlast
    · rename_i hleap
      exact ⟨by omega, by omega, fun _ => by rw [hleap]; simp only [and_true]; omega⟩
    · exact ⟨by omega, by omega, fun _ => .inl hlast⟩
  · rename_i hfebruary
    split at hlast
    · exact ⟨by omega, fun _ => hlast, fun h => absurd h hfebruary⟩
    · rename_i hlong
      simp only [Bool.or_eq_true, decide_eq_true_eq] at hlong
      exact ⟨hlast, fun h => absurd h (by omega), fun h => absurd h hfebruary⟩

/-- The months that have passed since March are told by the days. -/
theorem monthsSinceMarch_eq (h : c.isValid) :
    c.monthsSinceMarch = (5 * c.daysSinceMarch + 2) / 153 := by
  obtain ⟨hmonth, hfirst, hlast, hshort, hfebruary⟩ := day_bounds h
  unfold daysSinceMarch monthsSinceMarch
  have hmonths : c.month = 1 ∨ c.month = 2 ∨ c.month = 3 ∨ c.month = 4 ∨ c.month = 5 ∨
      c.month = 6 ∨ c.month = 7 ∨ c.month = 8 ∨ c.month = 9 ∨ c.month = 10 ∨ c.month = 11 ∨
      c.month = 12 := by omega
  rcases hmonths with hm | hm | hm | hm | hm | hm | hm | hm | hm | hm | hm | hm <;>
    rw [hm] at hshort hfebruary ⊢ <;> omega

/-- A day lies in the year that began with the March before it. -/
theorem daysSinceMarch_bounds (h : c.isValid) : 0 ≤ c.daysSinceMarch ∧
    daysBefore c.marchYear + c.daysSinceMarch < daysBefore (c.marchYear + 1) := by
  obtain ⟨hmonth, hfirst, hlast, -, hfebruary⟩ := day_bounds h
  have hyear := daysBefore_succ_ge c.marchYear
  unfold daysSinceMarch monthsSinceMarch
  by_cases hleap : c.month = 2 ∧ c.day = 29
  · have hnext : c.marchYear + 1 = c.year := by
      unfold marchYear
      rw [if_pos (by omega)]
      omega
    have hlong := daysBefore_succ_of_isLeapYear (y := c.marchYear) (by
      rw [hnext]
      exact ((hfebruary hleap.1).resolve_left (by omega)).2)
    omega
  · omega

/-- The number of a day is bounded by those of its year. -/
theorem dayNumber_bounds {first last : Int} (h : c.isValid) (hfirst : first ≤ c.year)
    (hlast : c.year ≤ last) : daysBefore (first - 1) - 719468 ≤ c.dayNumber ∧
      c.dayNumber < daysBefore (last + 1) - 719468 := by
  obtain ⟨hlow, hhigh⟩ := daysSinceMarch_bounds h
  have hmarch : first - 1 ≤ c.marchYear ∧ c.marchYear ≤ last := by
    unfold marchYear
    split <;> omega
  have hbefore := daysBefore_le hmarch.1
  have hafter := daysBefore_le (Int.add_le_add_right hmarch.2 1)
  rw [dayNumber_eq]
  omega

/-- **Two readings with one number are the same.** -/
theorem eq_of_dayNumber_eq (h : c.isValid) (h' : c'.isValid) (heq : c.dayNumber = c'.dayNumber) :
    c = c' := by
  obtain ⟨hlow, hhigh⟩ := daysSinceMarch_bounds h
  obtain ⟨hlow', hhigh'⟩ := daysSinceMarch_bounds h'
  rw [dayNumber_eq, dayNumber_eq] at heq
  -- A later year begins after all the days of an earlier one.
  have hyear : c.marchYear = c'.marchYear := by
    rcases Int.lt_trichotomy c.marchYear c'.marchYear with hlt | hsame | hgt
    · have hle := daysBefore_le (Int.add_one_le_of_lt hlt)
      omega
    · exact hsame
    · have hle := daysBefore_le (Int.add_one_le_of_lt hgt)
      omega
  rw [hyear] at heq
  have hdays : c.daysSinceMarch = c'.daysSinceMarch := by omega
  have hmonths := (monthsSinceMarch_eq h).trans (hdays ▸ (monthsSinceMarch_eq h').symm)
  obtain ⟨hmonth, -⟩ := day_bounds h
  obtain ⟨hmonth', -⟩ := day_bounds h'
  unfold daysSinceMarch at hdays
  rw [hmonths] at hdays
  unfold monthsSinceMarch at hmonths
  have hsame : c.month = c'.month := by omega
  unfold marchYear at hyear
  rw [hsame] at hyear
  obtain ⟨year, month, day⟩ := c
  obtain ⟨year', month', day'⟩ := c'
  rw [CivilDate.mk.injEq]
  dsimp only at hsame hdays hyear ⊢
  refine ⟨?_, hsame, by omega⟩
  split at hyear <;> omega

/-- The number of a reading has that reading. -/
theorem ofDayNumber_dayNumber (h : c.isValid) : ofDayNumber c.dayNumber = c :=
  eq_of_dayNumber_eq (isValid_ofDayNumber _) h (dayNumber_ofDayNumber _)

end Inverse

end CivilDate

namespace Date

/-- **A date is found by its year, month and day.** -/
theorem ofCivil?_civil (d : Date) : ofCivil? d.civil = some d := by
  unfold ofCivil? civil
  rw [if_pos (CivilDate.isValid_ofDayNumber _), CivilDate.dayNumber_ofDayNumber, ofDayNumber?,
    dif_pos d.inCalendar]

/-- Year, month and day name a date exactly if the date has them as its reading. -/
theorem ofCivil?_eq_some {c : CivilDate} {d : Date} : ofCivil? c = some d ↔ d.civil = c := by
  constructor
  · intro h
    unfold ofCivil? ofDayNumber? at h
    obtain ⟨hvalid, h⟩ := Option.ite_none_right_eq_some.mp h
    split at h
    · cases h
      exact CivilDate.ofDayNumber_dayNumber hvalid
    · cases h
  · rintro rfl
    exact ofCivil?_civil d

/-- The month and the day of a date have two digits at most. -/
theorem civil_bounds (d : Date) :
    (1 ≤ d.civil.month ∧ d.civil.month ≤ 12) ∧ 1 ≤ d.civil.day ∧ d.civil.day ≤ 31 := by
  obtain ⟨hmonth, hfirst, hlast, -⟩ :=
    CivilDate.day_bounds (CivilDate.isValid_ofDayNumber d.dayNumber)
  exact ⟨hmonth, hfirst, hlast⟩

/-- The years of the calendar have six digits at most. -/
theorem year_bounds (d : Date) : -300000 ≤ d.civil.year ∧ d.civil.year ≤ 300000 := by
  have hcalendar := d.inCalendar
  have hdoe : 0 ≤ (d.dayNumber + 719468) % 146097 := Int.emod_nonneg _ (by decide)
  have hdoe' : (d.dayNumber + 719468) % 146097 < 146097 := Int.emod_lt_of_pos _ (by decide)
  have hyear := CivilDate.yearOfEra_bounds hdoe hdoe'
  unfold civil
  rw [CivilDate.ofDayNumber_eq]
  dsimp only
  split <;> omega

end Date

end DailyBars
