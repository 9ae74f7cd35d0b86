import DailyBars.Broker.Page
import DailyBars.Proofs.Calendar.CompactTexts

/-!
# The trade dates of rows

The trade date of a row decides what becomes of it. A row without one gives no bar; a row whose trade
date spells a day gives the bar of that day, and any other row is an error that tells the text
(`PriceRow.bar_of_tradeDate`). Eight digits are read strictly: the bar is that of the day they stand for, or there
is none. But a day is spelt by other texts as well, so that a text that has lost a digit may tell of
another day (`PriceRow.bar_of_lostDigit`).
-/

namespace DailyBars

/-- A date is not spelt by nothing. -/
theorem SpellsDate.ne_nil {cs : List Char} {c : CivilDate} (h : SpellsDate cs c) : cs ≠ [] := by
  obtain ⟨front, year, month, gap, day, rfl, -, -, -, hday, -⟩ := h
  simp [hday.some]

namespace PriceRow

variable {r : PriceRow}

/-- The error of a row whose trade date does not match. -/
def misdated (raw : String) (e : PatternError) : BrokerError :=
  .parse ("Invalid trade date '" ++ raw ++ "': " ++ e.message)

theorem toBar?_of_empty (h : Text.trim r.date = "") : r.toBar? = .ok none := by
  unfold toBar?
  rw [if_pos h]

theorem toBar?_of_nonempty (h : Text.trim r.date ≠ "") : r.toBar? =
    match Date.ofCompact (Text.trim r.date) with
    | .ok day => .ok (some (r.bar day))
    | .error e => .error (misdated (Text.trim r.date) e) := by
  unfold toBar?
  rw [if_neg h]
  cases Date.ofCompact (Text.trim r.date) with
  | ok day => rfl
  | error e => rfl

/-- A bar is that of the day which the trade date spells. -/
theorem toBar?_eq_some {b : Bar} : r.toBar? = .ok (some b) ↔
    ∃ d, b = r.bar d ∧ SpellsDate (Text.trim r.date).toList d.civil := by
  by_cases hempty : Text.trim r.date = ""
  · rw [toBar?_of_empty hempty, hempty]
    constructor
    · intro h
      cases h
    · rintro ⟨d, -, hspells⟩
      exact absurd rfl hspells.ne_nil
  · rw [toBar?_of_nonempty hempty]
    simp only [← Date.ofCompact_eq_ok_iff]
    cases Date.ofCompact (Text.trim r.date) with
    | ok day => simp [eq_comm]
    | error e => simp

/-- What is no bar and not left out is an error that tells the trade date. -/
theorem toBar?_eq_error {e : BrokerError} (h : r.toBar? = .error e) :
    ∃ p, e = misdated (Text.trim r.date) p := by
  by_cases hempty : Text.trim r.date = ""
  · rw [toBar?_of_empty hempty] at h
    cases h
  · rw [toBar?_of_nonempty hempty] at h
    split at h
    · cases h
    · cases h
      exact ⟨_, rfl⟩

theorem toBar?_eq_none : r.toBar? = .ok none ↔ Text.trim r.date = "" := by
  refine ⟨fun h => ?_, toBar?_of_empty⟩
  by_contra hempty
  rw [toBar?_of_nonempty hempty] at h
  split at h <;> cases h

/-- **The trade date of a row decides on its bar.** White space around it does not count. Without one
there is none, the bar is that of the day which it spells, and there is an error in all other cases.
Eight digits spell the day that is written so and no other, and of the other texts of digits alone
only those of seven spell one. -/
theorem bar_of_tradeDate (r : PriceRow) :
    let raw := Text.trim r.date
    (r.toBar? = .ok none ↔ raw = "") ∧
    (∀ b, r.toBar? = .ok (some b) ↔ ∃ d, b = r.bar d ∧ SpellsDate raw.toList d.civil) ∧
    (∀ e, r.toBar? = .error e → ∃ p : PatternError,
      e = .parse ("Invalid trade date '" ++ raw ++ "': " ++ p.message)) ∧
    ((∀ c ∈ raw.toList, Text.isDigit c) →
      (raw.toList.length = 8 → ∀ b, r.toBar? = .ok (some b) ↔ ∃ d, b = r.bar d ∧ d.compact = raw) ∧
      ∀ b, r.toBar? = .ok (some b) → raw.toList.length = 7 ∨ raw.toList.length = 8) := by
  intro raw
  refine ⟨toBar?_eq_none, fun b => toBar?_eq_some, fun e => toBar?_eq_error, fun hdigits => ?_⟩
  refine ⟨fun hlength b => ?_, fun b h => ?_⟩
  · rw [toBar?_eq_some]
    refine exists_congr fun d => and_congr_right fun _ => ?_
    exact spellsDate_iff_compact hlength hdigits
  · obtain ⟨d, -, hspells⟩ := toBar?_eq_some.mp h
    obtain ⟨year, month, day, hraw, hyear, hmonth, hday, -⟩ :=
      (spellsDate_iff_of_digits hdigits).mp hspells
    rw [hraw, List.length_append, List.length_append]
    omega

/-- The 4th of November 2024. -/
def november4 : Date := ⟨20031, by decide⟩

/-- A row with nothing but the date, and white space around it. -/
def dateAlone : PriceRow := { blank with date := " 20241104" }

theorem bar_of_dateAlone : (∀ c ∈ (Text.trim dateAlone.date).toList, Text.isDigit c) ∧
    (Text.trim dateAlone.date).toList.length = 8 ∧
    dateAlone.toBar? = .ok (some (dateAlone.bar november4)) := by
  have hraw : Text.trim dateAlone.date = "20241104" := by decide +kernel
  have hdigits : ∀ c ∈ (Text.trim dateAlone.date).toList, Text.isDigit c := by
    rw [hraw]
    exact List.all_eq_true.mp (by decide +kernel)
  have hlength : (Text.trim dateAlone.date).toList.length = 8 := by
    rw [hraw]
    decide +kernel
  refine ⟨hdigits, hlength, ?_⟩
  obtain ⟨-, -, -, hstrict⟩ := bar_of_tradeDate dateAlone
  refine ((hstrict hdigits).1 hlength _).mpr ⟨november4, rfl, ?_⟩
  rw [hraw]
  decide +kernel

/-- What is left of the 14th of November 2024, or of the 14th of October, without one of the digits. -/
def lostDigit : PriceRow := { blank with date := "2024114" }

theorem bar_of_lostDigit : lostDigit.toBar? = .ok (some (lostDigit.bar november4)) ∧
    (Text.trim lostDigit.date).toList.length ≠ 8 := by
  have hraw : Text.trim lostDigit.date = "2024114" := by decide +kernel
  have hread : Date.ofCompact "2024114" = .ok november4 := by decide +kernel
  rw [toBar?_of_nonempty (by rw [hraw]; decide +kernel), hraw, hread]
  exact ⟨rfl, by decide +kernel⟩

end PriceRow

end DailyBars
