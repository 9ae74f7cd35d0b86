import DailyBars.Proofs.Broker.TokenEnds
import DailyBars.Proofs.Calendar.Compact
import DailyBars.Proofs.Calendar.NextRun

/-!
# The stamp of an instant is read back

The end of a token's life is told as the clock of Seoul shows it, to the second. In the years of four
digits the stamp of a reading is read as the reading, with white space around it or without
(`WallReading.IsStamped.ofStamp_text`), and the calendar reaches every instant that shows it. So a
stamp means the instant that shows it, if that is only one (`Seoul.reads_back`); where the clock was
put forward or back over it, the length of life stands in.
-/

namespace DailyBars

open Text

/-! ### Stamps -/

namespace WallReading

variable {r : WallReading}

/-- A reading that is written as a stamp: it shows whole seconds in a year of four digits. -/
structure IsStamped (r : WallReading) : Prop where
  whole : r.time.nanos = 0
  year : 0 ≤ r.date.civil.year ∧ r.date.civil.year ≤ 9999

/-- The characters of a stamp, part by part. -/
theorem IsStamped.toList_text (h : r.IsStamped) : (r.text ' ').toList =
    paddedDigits 4 r.date.civil.year.natAbs ++ '-' :: (paddedDigits 2 r.date.civil.month ++
      '-' :: (paddedDigits 2 r.date.civil.day ++ ([' '] ++ (paddedDigits 2 (r.time.seconds / 3600) ++
        ':' :: (paddedDigits 2 (r.time.seconds / 60 % 60) ++
          ':' :: (paddedDigits 2 (r.time.seconds % 60) ++ [])))))) := by
  unfold text Date.isoDigits yearDigits TimeOfDay.digits
  rw [String.toList_ofList, h.whole]
  dsimp only
  rw [if_pos h.year, if_neg (by decide)]
  simp [TimeOfDay.fractionDigits]

/-- Hour, minute and second name the time of whole seconds that has them. -/
theorem IsStamped.ofParts?_time (h : r.IsStamped) :
    TimeOfDay.ofParts? (r.time.seconds / 3600) (r.time.seconds / 60 % 60) (r.time.seconds % 60) 0 =
      some r.time := by
  obtain ⟨date, ⟨seconds, nanos, hday, hnanos⟩⟩ := r
  obtain rfl : nanos = 0 := h.whole
  have hleap : seconds % 60 ≠ 60 := by omega
  have hparts : seconds / 3600 * 3600 + seconds / 60 % 60 * 60 + seconds % 60 = seconds := by omega
  unfold TimeOfDay.ofParts?
  simp only [if_neg hleap, hparts]
  rw [dif_pos (by omega)]

open PatternFields in
/-- **The stamp of a reading is read as the reading.** -/
theorem IsStamped.ofStamp_text (h : r.IsStamped) : ofStamp (r.text ' ') = .ok r := by
  obtain ⟨hmonth, hday⟩ := r.date.civil_bounds
  obtain ⟨hfirst, hlast⟩ := h.year
  have hyear : ((r.date.civil.year.natAbs : Nat) : Int) = r.date.civil.year :=
    Int.natAbs_of_nonneg hfirst
  have hseconds := r.time.inDay
  -- A blank of the pattern takes the one of the text; no digits follow a field but its own.
  have hitems : readItems {} stampPattern (r.text ' ').toList =
      .ok (⟨r.date.civil.year, r.date.civil.month, r.date.civil.day, r.time.seconds / 3600,
        r.time.seconds / 60 % 60, r.time.seconds % 60, 0⟩, []) := by
    have hhour : r.time.seconds / 3600 < 10 ^ 2 := by omega
    rw [h.toList_text, stampPattern, readItems_field (readField_year (by omega) _), readItems_literal,
      readItems_field (readField_month hmonth _), readItems_literal,
      readItems_field (readField_day hday _), readItems_blanks (List.forall_mem_singleton.mpr rfl),
      dropBlanks_padded (by decide) hhour,
      readItems_field (readField_hour (by omega) _), readItems_literal,
      readItems_field (readField_minute (by omega) _), readItems_literal,
      readItems_field (readField_second (by omega) _), hyear]
    rfl
  unfold ofStamp PatternFields.read
  rw [hitems]
  change (do return WallReading.mk (← PatternFields.date _) (← PatternFields.time _)) = _
  unfold PatternFields.date PatternFields.time
  dsimp only
  rw [Date.ofCivil?_civil, h.ofParts?_time]
  rfl

/-- White space around a stamp is trimmed, as the stamp begins and ends with digits. -/
theorem IsStamped.trim_eq {s : String} (h : r.IsStamped) (hs : IsAround (r.text ' ').toList s) :
    trim s = r.text ' ' := by
  have hyear : (paddedDigits 4 r.date.civil.year.natAbs).length = 4 :=
    length_paddedDigits (by decide) (by have := h.year; omega)
  have hsecond : (paddedDigits 2 (r.time.seconds % 60)).length = 2 :=
    length_paddedDigits (by decide) (by omega)
  obtain ⟨middle, hends⟩ : ∃ middle, (r.text ' ').toList =
      paddedDigits 4 r.date.civil.year.natAbs ++ (middle ++ paddedDigits 2 (r.time.seconds % 60)) :=
    ⟨'-' :: (paddedDigits 2 r.date.civil.month ++ '-' :: (paddedDigits 2 r.date.civil.day ++
      ' ' :: (paddedDigits 2 (r.time.seconds / 3600) ++
        ':' :: (paddedDigits 2 (r.time.seconds / 60 % 60) ++ [':'])))), by
      rw [h.toList_text]
      simp⟩
  rw [hs.trim_eq_of_ends, String.ofList_toList] <;> rw [hends] <;> intro c hc
  · rw [List.head?_append_of_ne_nil _ (by rw [← List.length_pos_iff]; omega)] at hc
    exact isBlank_of_isDigit (all_isDigit_paddedDigits _ _ c (List.mem_of_mem_head? hc))
  · rw [← List.append_assoc,
      List.getLast?_append_of_ne_nil _ (by rw [← List.length_pos_iff]; omega)] at hc
    exact isBlank_of_isDigit (all_isDigit_paddedDigits _ _ c (List.mem_of_mem_getLast? hc))

/-- The calendar reaches every instant at which the clock of Seoul shows a year of four digits. -/
theorem IsStamped.inCalendar {t : Instant} (h : r.IsStamped) (ht : Seoul.reading? t = some r) :
    t.inCalendar := by
  have hnumber : r.date.civil.dayNumber = r.date.dayNumber :=
    CivilDate.dayNumber_ofDayNumber r.date.dayNumber
  have hdays := CivilDate.dayNumber_bounds (CivilDate.isValid_ofDayNumber r.date.dayNumber)
    h.year.1 h.year.2
  have hoffset := Seoul.offset_bounds t
  have hday := r.time.inDay
  have hseconds : t.seconds = r.seconds - Seoul.offsetAt t :=
    congrArg Instant.seconds (Instant.reading?_eq_some.mp ht)
  change _ ≤ r.date.civil.dayNumber ∧ r.date.civil.dayNumber < _ at hdays
  rw [hnumber] at hdays
  -- These are bounds in days, and those of the calendar lie far beyond them.
  unfold CivilDate.daysBefore at hdays
  unfold Seoul.localMean Seoul.ten at hoffset
  unfold WallReading.seconds at hseconds
  unfold Instant.inCalendar Date.firstDay Date.lastDay
  simp only [Bool.and_eq_true, decide_eq_true_eq]
  omega

/-- A stamp of a reading, with white space around it, means the instant that shows the reading. -/
theorem IsStamped.instantOfStamp?_eq {s : String} (h : r.IsStamped)
    (hs : IsAround (r.text ' ').toList s) : Seoul.instantOfStamp? s = Seoul.single? r := by
  unfold Seoul.instantOfStamp?
  rw [h.trim_eq hs, h.ofStamp_text]

theorem IsStamped.single?_eq_some_iff {t : Instant} (h : r.IsStamped) :
    Seoul.single? r = some t ↔ ∀ u, Seoul.reading? u = some r ↔ u = t := by
  rw [Seoul.single?_eq_some_iff]
  exact forall_congr' fun u => by rw [and_iff_right_of_imp h.inCalendar]

end WallReading

/-! ### What a token's end is read as -/

namespace Seoul

variable {r : WallReading} {s : String} {t : Instant}

/-- A text that means an instant, which is the end of every token of which it is told. -/
structure Means (s : String) (t : Instant) : Prop where
  read : instantOfStamp? s = some t
  ends : ∀ (reply : TokenReply) (issuedAt : Instant), reply.expiry = some s →
    reply.expiresAt? issuedAt = some t

/-- A text that means nothing. A token of which it is told ends its length of life after it was asked
for, as far as the calendar reaches. -/
structure MeansNothing (s : String) : Prop where
  read : instantOfStamp? s = none
  fallsBack : ∀ (reply : TokenReply) (issuedAt : Instant), reply.expiry = some s →
    reply.expiresAt? issuedAt = reply.lifetime.bind issuedAt.addSeconds?
  ends : ∀ (reply : TokenReply) (issuedAt E : Instant), reply.expiry = some s → issuedAt.Regular →
    (reply.expiresAt? issuedAt = some E ↔ ∃ life, reply.lifetime = some life ∧
      E = ⟨issuedAt.seconds + life, issuedAt.nanos⟩ ∧ E.inCalendar)

theorem means_of_read (h : instantOfStamp? s = some t) : Means s t := by
  refine ⟨h, fun reply issuedAt hexpiry => ?_⟩
  unfold TokenReply.expiresAt?
  rw [hexpiry, Option.bind_some, h]

theorem meansNothing_of_not_read (h : instantOfStamp? s = none) : MeansNothing s := by
  have hfalls : ∀ (reply : TokenReply) (issuedAt : Instant), reply.expiry = some s →
      reply.expiresAt? issuedAt = reply.lifetime.bind issuedAt.addSeconds? := by
    intro reply issuedAt hexpiry
    unfold TokenReply.expiresAt?
    rw [hexpiry, Option.bind_some, h]
  refine ⟨h, hfalls, fun reply issuedAt E hexpiry hissued => ?_⟩
  simp only [hfalls reply issuedAt hexpiry, Option.bind_eq_some_iff,
    Instant.addSeconds?_eq_some hissued]

/-- What a stamp of a reading means. -/
structure ReadsBack (r : WallReading) (s : String) : Prop where
  /-- If one instant shows the reading, the stamp means this instant. -/
  once : ∀ t, reading? t = some r → (∀ u, reading? u = some r → u = t) → Means s t
  /-- If two instants show it, the stamp means neither. -/
  twice : ∀ t u, reading? t = some r → reading? u = some r → t ≠ u → MeansNothing s
  /-- If no instant shows it, the stamp means nothing. -/
  never : (∀ t, reading? t ≠ some r) → MeansNothing s
  /-- No instant shows a reading over which the clock was put forward. -/
  skipped : (∀ t, reading? t ≠ some r) ↔ ∃ c ∈ changes, c.Skips r.seconds
  /-- Two instants show a reading over which the clock was put back. -/
  repeated : (∃ t u, t ≠ u ∧ reading? t = some r ∧ reading? u = some r) ↔
    ∃ c ∈ changes, c.Repeats r.seconds

/-- **Stamps are read back exactly.** In every year of four digits a stamp, with any white space
around it, means the instant that shows it if there is one only, and nothing otherwise. -/
theorem reads_back (h : r.IsStamped) (hs : IsAround (r.text ' ').toList s) : ReadsBack r s := by
  have hread : ∀ t, instantOfStamp? s = some t ↔ ∀ u, reading? u = some r ↔ u = t := fun t => by
    rw [h.instantOfStamp?_eq hs, h.single?_eq_some_iff]
  have hnothing (hno : ∀ t, ¬ ∀ u, reading? u = some r ↔ u = t) : MeansNothing s :=
    meansNothing_of_not_read (Option.eq_none_iff_forall_ne_some.mpr fun t ht =>
      hno t ((hread t).mp ht))
  refine ⟨fun t ht honly => ?_, fun t u ht hu hne => ?_, fun hnone => ?_, forall_reading?_ne_iff,
    exists_two_reading?_iff⟩
  · exact means_of_read ((hread t).mpr fun u => ⟨honly u, fun hu => hu ▸ ht⟩)
  · exact hnothing fun v hv => hne (((hv t).mp ht).trans ((hv u).mp hu).symm)
  · exact hnothing fun t ht => hnone t ((ht t).mpr rfl)

/-- In the night of 1988-05-08 the clock was put forward over half past two. -/
theorem reads_back_skipped : ∃ r : WallReading, r.IsStamped ∧
    IsAround (r.text ' ').toList " 1988-05-08 02:30:00\n" ∧
      MeansNothing " 1988-05-08 02:30:00\n" := by
  let r : WallReading := ⟨⟨6702, by decide⟩, ⟨9000, 0, by decide, by decide⟩⟩
  have hstamped : r.IsStamped := ⟨rfl, by decide⟩
  have haround : IsAround (r.text ' ').toList " 1988-05-08 02:30:00\n" :=
    ⟨[' '], ['\n'], List.forall_mem_singleton.mpr rfl, List.forall_mem_singleton.mpr rfl,
      by decide +kernel⟩
  have hreads := reads_back hstamped haround
  have hskipped : ∃ c ∈ changes, c.Skips r.seconds :=
    ⟨⟨utc 1988 5 7 17 0, nine, ten⟩, by decide +kernel, by decide, by decide⟩
  exact ⟨r, hstamped, haround, hreads.never (hreads.skipped.mpr hskipped)⟩

end Seoul

end DailyBars
