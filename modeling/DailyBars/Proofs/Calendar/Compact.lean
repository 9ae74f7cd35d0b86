import DailyBars.Calendar.Pattern
import DailyBars.Proofs.Calendar.Civil
import DailyBars.Proofs.Text.Blanks

/-!
# Dates in eight digits

A date of the years 0 to 9999 is written as eight digits, and these are read as the date. Other years
are written with a sign.
-/

namespace DailyBars

open Text

namespace PatternFields

variable {ds rest : List Char} {p : PatternFields}

/-- As many digits as a field takes are read as a number. -/
theorem readNumber_digits (hne : ds ≠ []) (h : ∀ c ∈ ds, isDigit c)
    (hlimit : valueOfDigits 0 ds ≤ readLimit) :
    readNumber ds.length (ds ++ rest) = .ok (valueOfDigits 0 ds, rest) := by
  have htake : ((ds ++ rest).take ds.length).takeWhile isDigit = ds := by
    rw [List.take_left, List.takeWhile_eq_self_iff.mpr (by simpa using h)]
  cases ds with
  | nil => exact absurd rfl hne
  | cons c ds =>
      have hc := h c List.mem_cons_self
      rw [List.cons_append] at htake ⊢
      unfold readNumber
      simp only [hc, htake, Bool.not_true, Bool.false_eq_true, if_false, if_neg (Nat.not_lt.mpr hlimit)]
      rw [← List.cons_append, List.drop_left]

/-- A number that was padded to the width of its field is read. -/
theorem readNumber_padded {width n : Nat} (hpos : 1 ≤ width) (h : n < 10 ^ width)
    (hlimit : n ≤ readLimit) (rest : List Char) :
    readNumber width (paddedDigits width n ++ rest) = .ok (n, rest) := by
  have hlength := length_paddedDigits hpos h
  have hread : readNumber (paddedDigits width n).length (paddedDigits width n ++ rest) =
      .ok (valueOfDigits 0 (paddedDigits width n), rest) :=
    readNumber_digits (by rw [← List.length_pos_iff]; omega) (all_isDigit_paddedDigits width n)
      (by rw [valueOfDigits_paddedDigits]; exact hlimit)
  rw [hlength, valueOfDigits_paddedDigits] at hread
  exact hread

/-- A year without a sign is read from four digits. -/
theorem readYear_padded {y : Nat} (h : y < 10 ^ 4) (rest : List Char) :
    readYear (paddedDigits 4 y ++ rest) = .ok ((y : Int), rest) := by
  have hlength := length_paddedDigits (by decide) h
  have hread := readNumber_padded (by decide) h (Nat.le_trans (Nat.le_of_lt h) (by decide)) rest
  have hdigits := all_isDigit_paddedDigits 4 y
  generalize paddedDigits 4 y = ds at *
  cases ds with
  | nil => cases hlength
  | cons c ds =>
      have hc := isDigit_iff.mp (hdigits c List.mem_cons_self)
      unfold readYear
      split
      · rename_i heq
        obtain ⟨rfl, -⟩ := List.cons.inj heq
        exact absurd hc (by decide)
      · rename_i heq
        obtain ⟨rfl, -⟩ := List.cons.inj heq
        exact absurd hc (by decide)
      · rw [hread]
        rfl

theorem dropBlanks_padded {width n : Nat} (hpos : 1 ≤ width) (h : n < 10 ^ width)
    (rest : List Char) :
    dropBlanks (paddedDigits width n ++ rest) = paddedDigits width n ++ rest := by
  refine dropBlanks_digits (fun hnil => ?_) (all_isDigit_paddedDigits width n)
  have hlength := length_paddedDigits hpos h
  rw [hnil, List.length_nil] at hlength
  omega

theorem readField_year {y : Nat} (h : y ≤ 9999) (rest : List Char) :
    readField p .year (paddedDigits 4 y ++ rest) = .ok ({ p with year := y }, rest) := by
  have hlt : y < 10 ^ 4 := Nat.lt_succ_of_le h
  have hrange : yearInRange (y : Int) = .ok (y : Int) := by
    unfold yearInRange
    rw [if_pos (by simp only [Bool.and_eq_true, decide_eq_true_eq]; omega)]
  unfold readField
  rw [dropBlanks_padded (by decide) hlt]
  dsimp only
  rw [readYear_padded hlt]
  change (yearInRange (y : Int) >>= _) = _
  rw [hrange]
  rfl

/-- Two digits are read as a number in the range of its field. -/
theorem readTwo_padded {lo hi n : Nat} (set : Nat → PatternFields) (h : lo ≤ n ∧ n ≤ hi)
    (hhi : hi < 100) (rest : List Char) :
    (do let (n, rest) ← readNumber 2 (dropBlanks (paddedDigits 2 n ++ rest))
        return (set (← inRange lo hi n), rest)) = .ok (set n, rest) := by
  have hlt : n < 10 ^ 2 := by omega
  have hrange : inRange lo hi n = .ok n := if_pos (by simpa using h)
  rw [dropBlanks_padded (by decide) hlt,
    readNumber_padded (by decide) hlt (Nat.le_trans (Nat.le_of_lt hlt) (by decide)) rest]
  change (inRange lo hi n >>= _) = _
  rw [hrange]
  rfl

theorem readField_month {m : Nat} (h : 1 ≤ m ∧ m ≤ 12) (rest : List Char) :
    readField p .month (paddedDigits 2 m ++ rest) = .ok ({ p with month := m }, rest) :=
  readTwo_padded (fun m => { p with month := m }) h (by decide) rest

theorem readField_day {n : Nat} (h : 1 ≤ n ∧ n ≤ 31) (rest : List Char) :
    readField p .day (paddedDigits 2 n ++ rest) = .ok ({ p with day := n }, rest) :=
  readTwo_padded (fun n => { p with day := n }) h (by decide) rest

theorem readField_hour {n : Nat} (h : n ≤ 23) (rest : List Char) :
    readField p .hour (paddedDigits 2 n ++ rest) = .ok ({ p with hour := n }, rest) :=
  readTwo_padded (fun n => { p with hour := n }) ⟨Nat.zero_le n, h⟩ (by decide) rest

theorem readField_minute {n : Nat} (h : n ≤ 59) (rest : List Char) :
    readField p .minute (paddedDigits 2 n ++ rest) = .ok ({ p with minute := n }, rest) :=
  readTwo_padded (fun n => { p with minute := n }) ⟨Nat.zero_le n, h⟩ (by decide) rest

theorem readField_second {n : Nat} (h : n ≤ 60) (rest : List Char) :
    readField p .second (paddedDigits 2 n ++ rest) = .ok ({ p with second := n }, rest) :=
  readTwo_padded (fun n => { p with second := n }) ⟨Nat.zero_le n, h⟩ (by decide) rest

theorem readItems_field {q : PatternFields} {f : PatternField} {items : List PatternItem}
    {cs : List Char} (h : readField p f cs = .ok (q, rest)) :
    readItems p (.field f :: items) cs = readItems q items rest := by
  change (readField p f cs >>= _) = _
  rw [h]
  rfl

theorem readItems_literal {c : Char} {items : List PatternItem} (cs : List Char) :
    readItems p (.literal c :: items) (c :: cs) = readItems p items cs := by
  change (readItem p (.literal c) (c :: cs) >>= _) = _
  unfold readItem
  dsimp only
  rw [if_pos rfl]
  rfl

theorem readItems_blanks {items : List PatternItem} {front cs : List Char}
    (hfront : ∀ c ∈ front, isBlank c) :
    readItems p (.blanks :: items) (front ++ cs) = readItems p items (dropBlanks cs) := by
  change readItems p items (dropBlanks (front ++ cs)) = _
  rw [dropBlanks, List.dropWhile_append_of_pos hfront, dropBlanks]

end PatternFields

namespace Date

variable {d : Date}

theorem toList_compact (h : 0 ≤ d.civil.year ∧ d.civil.year ≤ 9999) : d.compact.toList =
    paddedDigits 4 d.civil.year.natAbs ++ (paddedDigits 2 d.civil.month ++
      (paddedDigits 2 d.civil.day ++ [])) := by
  unfold compact yearDigits
  rw [String.toList_ofList, if_pos h, List.append_nil, List.append_assoc]

open PatternFields in
/-- **The eight digits of a date are read as the date.** -/
theorem ofCompact_compact (h : 0 ≤ d.civil.year ∧ d.civil.year ≤ 9999) :
    ofCompact d.compact = .ok d := by
  obtain ⟨hmonth, hday⟩ := d.civil_bounds
  have hyear : ((d.civil.year.natAbs : Nat) : Int) = d.civil.year := Int.natAbs_of_nonneg h.1
  have hitems : readItems {} compactPattern d.compact.toList =
      .ok ({ year := d.civil.year, month := d.civil.month, day := d.civil.day }, []) := by
    rw [toList_compact h, compactPattern, readItems_field (readField_year (by omega) _),
      readItems_field (readField_month hmonth _), readItems_field (readField_day hday _), hyear]
    rfl
  unfold ofCompact PatternFields.read
  rw [hitems]
  change PatternFields.date _ = _
  unfold PatternFields.date
  rw [ofCivil?_civil]

theorem all_isDigit_compact (h : 0 ≤ d.civil.year ∧ d.civil.year ≤ 9999) :
    ∀ c ∈ d.compact.toList, isDigit c := by
  rw [toList_compact h]
  intro c hc
  simp only [List.mem_append, List.not_mem_nil, or_false] at hc
  rcases hc with hc | hc | hc <;> exact all_isDigit_paddedDigits _ _ c hc

/-- The sign of another year is no digit. -/
theorem year_of_all_isDigit (h : ∀ c ∈ d.compact.toList, isDigit c) :
    0 ≤ d.civil.year ∧ d.civil.year ≤ 9999 := by
  by_cases hyear : 0 ≤ d.civil.year ∧ d.civil.year ≤ 9999
  · exact hyear
  · have hsign : (if d.civil.year < 0 then '-' else '+') ∈ d.compact.toList := by
      unfold compact yearDigits
      rw [String.toList_ofList, if_neg hyear]
      exact List.mem_cons_self
    have hdigit := h _ hsign
    split at hdigit <;> cases hdigit

/-- No other date is written as one in eight digits. -/
theorem eq_of_compact_eq {d' : Date} (h : 0 ≤ d.civil.year ∧ d.civil.year ≤ 9999)
    (heq : d'.compact = d.compact) : d' = d := by
  have hread := ofCompact_compact
    (year_of_all_isDigit (by rw [heq]; exact all_isDigit_compact h))
  rw [heq, ofCompact_compact h] at hread
  exact (Except.ok.inj hread).symm

end Date

end DailyBars
