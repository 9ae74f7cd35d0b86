import DailyBars.Proofs.Calendar.CompactTexts

/-!
# Dates with dashes are read back

A dash behind a year ends its digits, so that a year is read from its text whatever it is
(`PatternFields.readYear_yearDigits`): a year of four digits as such, and one before 0 or after 9999
behind its sign. So the text `YYYY-MM-DD` of a date of any year is read as the date (`Date.ofIso_iso`).
-/

namespace DailyBars

open Text

namespace PatternFields

variable {rest : List Char} {p : PatternFields} {y : Int} {n : Nat}

/-- Behind a sign all of the digits are read, up to what is no digit. -/
theorem readNumber_behindSign (hlimit : n ≤ readLimit)
    (hrest : ∀ c ∈ rest.head?, isDigit c = false) :
    readNumber (paddedDigits 4 n ++ rest).length (paddedDigits 4 n ++ rest) = .ok (n, rest) := by
  have hne : paddedDigits 4 n ≠ [] :=
    fun hnil => digitsOf_ne_nil n (List.append_eq_nil_iff.mp hnil).2
  have htakes : Takes (paddedDigits 4 n ++ rest).length (paddedDigits 4 n) rest :=
    ⟨all_isDigit_paddedDigits 4 n, hne, by simp, fun _ => hrest⟩
  rw [htakes.readNumber_eq, valueOfDigits_paddedDigits, if_neg (Nat.not_lt.mpr hlimit)]

/-- A year is read from its text, if something other than a digit follows. -/
theorem readYear_yearDigits (hlimit : y.natAbs ≤ readLimit)
    (hrest : ∀ c ∈ rest.head?, isDigit c = false) :
    readYear (yearDigits y ++ rest) = .ok (y, rest) := by
  unfold yearDigits
  split
  · rename_i hfour
    rw [readYear_padded (by omega), Int.natAbs_of_nonneg hfour.1]
  · have hread := readNumber_behindSign hlimit hrest
    rw [List.cons_append]
    split
    · exact readYear_eq_ok.mpr (.inl ⟨_, _, rfl, hread, by omega⟩)
    · exact readYear_eq_ok.mpr (.inr (.inl ⟨_, _, rfl, hread, by omega⟩))

/-- The text of a year begins with a digit or a sign. -/
theorem dropBlanks_yearDigits (y : Int) (rest : List Char) :
    dropBlanks (yearDigits y ++ rest) = yearDigits y ++ rest := by
  unfold yearDigits
  split
  · exact dropBlanks_padded (by decide) (by omega) rest
  · refine dropBlanks_eq_self fun c hc => ?_
    obtain rfl := Option.some.inj hc
    split <;> decide

theorem readField_yearDigits (hy : -300000 ≤ y ∧ y ≤ 300000)
    (hrest : ∀ c ∈ rest.head?, isDigit c = false) :
    readField p .year (yearDigits y ++ rest) = .ok ({ p with year := y }, rest) := by
  have hlimit : 300000 ≤ readLimit := by decide
  refine readField_year_eq_ok.mpr ⟨y, ?_, by omega, rfl⟩
  rw [dropBlanks_yearDigits]
  exact readYear_yearDigits (by omega) hrest

/-- A dash may have white space in front of it, and needs none. -/
theorem readItems_dash {items : List PatternItem} (cs : List Char) :
    readItems p (.blanks :: .literal '-' :: items) ('-' :: cs) = readItems p items cs := by
  have hdash : dropBlanks ('-' :: cs) = '-' :: cs :=
    dropBlanks_eq_self fun c hc => by cases hc; decide
  change readItems p (.literal '-' :: items) (dropBlanks ('-' :: cs)) = _
  rw [hdash, readItems_literal]

end PatternFields

namespace Date

theorem toList_iso (d : Date) : d.iso.toList = yearDigits d.civil.year ++
    '-' :: (paddedDigits 2 d.civil.month ++ '-' :: (paddedDigits 2 d.civil.day ++ [])) := by
  unfold iso isoDigits
  rw [String.toList_ofList]
  simp

open PatternFields in
/-- **The text of a date is read as the date**, in every year of the calendar. -/
theorem ofIso_iso (d : Date) : ofIso d.iso = .ok d := by
  obtain ⟨hmonth, hday⟩ := d.civil_bounds
  have hdash {cs : List Char} : ∀ c ∈ ('-' :: cs).head?, isDigit c = false :=
    fun c hc => by cases hc; decide
  have hitems : readItems {} isoPattern d.iso.toList =
      .ok ({ year := d.civil.year, month := d.civil.month, day := d.civil.day }, []) := by
    rw [toList_iso, isoPattern, readItems_field (readField_yearDigits d.year_bounds hdash),
      readItems_dash, readItems_field (readField_month hmonth _), readItems_dash,
      readItems_field (readField_day hday _)]
    rfl
  exact bind_eq_ok.mpr ⟨_, read_eq_ok.mpr hitems, date_eq_ok.mpr rfl⟩

end Date

end DailyBars
