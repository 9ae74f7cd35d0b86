import DailyBars.Proofs.Calendar.Compact

/-!
# The texts that are read as dates

Eight digits are one way to write a date that can be read, and not the only one: white space may
stand in front of each field, a field takes fewer digits than it has room for where something else
follows them, and a year may have a sign and any number of digits. `SpellsDate` has exactly the texts
that are read (`Date.ofCompact_eq_ok_iff`). Of the texts of eight digits only that of the date itself
is among them (`SpellsDate.eight_digits`).
-/

namespace DailyBars

open Text

theorem bind_eq_ok {ε α β : Type} {x : Except ε α} {f : α → Except ε β} {b : β} :
    (x >>= f) = .ok b ↔ ∃ a, x = .ok a ∧ f a = .ok b := by
  cases x with
  | ok a => exact ⟨fun h => ⟨a, rfl, h⟩, fun ⟨_, ha, h⟩ => by cases ha; exact h⟩
  | error e =>
      constructor
      · intro h
        cases h
      · rintro ⟨_, ⟨⟩, -⟩

namespace PatternFields

variable {most n : Nat} {cs ds gap rest tail : List Char}

/-! ### The digits of a field -/

/-- From a text that goes on with `rest` a number takes digits as long as there are some, and no more
than it has room for. -/
structure Takes (most : Nat) (ds rest : List Char) : Prop where
  digits : ∀ c ∈ ds, isDigit c
  some : ds ≠ []
  room : ds.length ≤ most
  all : ds.length < most → ∀ c ∈ rest.head?, isDigit c = false

theorem Takes.takeWhile_eq (h : Takes most ds rest) :
    ((ds ++ rest).take most).takeWhile isDigit = ds := by
  have hall : ds.takeWhile isDigit = ds := List.takeWhile_eq_self_iff.mpr h.digits
  rw [List.take_append, List.take_of_length_le h.room]
  by_cases hfull : ds.length < most
  · cases rest with
    | nil => rw [List.take_nil, List.append_nil, hall]
    | cons c rest =>
        have hc := h.all hfull c rfl
        obtain ⟨more, hmore⟩ := Nat.exists_eq_succ_of_ne_zero (Nat.sub_ne_zero_of_lt hfull)
        rw [hmore, List.take_succ_cons, List.takeWhile_append_of_pos h.digits,
          List.takeWhile_cons_of_neg (by simpa using hc), List.append_nil]
  · have hzero : most - ds.length = 0 := by omega
    rw [hzero, List.take_zero, List.append_nil, hall]

theorem takes_singleton {c : Char} (hc : isDigit c) (hmost : 1 ≤ most)
    (hrest : 1 < most → ∀ d ∈ rest.head?, isDigit d = false) : Takes most [c] rest :=
  ⟨by simpa using hc, by simp, hmost, hrest⟩

/-- From a text that begins with a digit some digits are taken. -/
theorem exists_takes (most : Nat) {c : Char} (hc : isDigit c) (cs : List Char) :
    ∃ ds rest, c :: cs = ds ++ rest ∧ Takes (most + 1) ds rest := by
  induction most generalizing c cs with
  | zero => exact ⟨[c], cs, rfl, takes_singleton hc (Nat.le_refl 1) (by simp)⟩
  | succ most ih =>
      cases cs with
      | nil => exact ⟨[c], [], rfl, takes_singleton hc (by simp) (by simp)⟩
      | cons d cs =>
          by_cases hd : isDigit d
          · obtain ⟨ds, rest, hds, h⟩ := ih hd cs
            refine ⟨c :: ds, rest, by rw [hds, List.cons_append], ?_, by simp, ?_, ?_⟩
            · intro e he
              rcases List.mem_cons.mp he with rfl | he
              · exact hc
              · exact h.digits e he
            · exact Nat.succ_le_succ h.room
            · exact fun hroom => h.all (Nat.lt_of_succ_lt_succ hroom)
          · exact ⟨[c], d :: cs, rfl, takes_singleton hc (by simp) (by simpa using hd)⟩

/-- What is taken from the head of a text is read as a number. -/
theorem Takes.readNumber_eq (h : Takes most ds rest) : readNumber most (ds ++ rest) =
    if readLimit < valueOfDigits 0 ds then .error .outOfRange
      else .ok (valueOfDigits 0 ds, rest) := by
  have htake := h.takeWhile_eq
  obtain ⟨c, ds, rfl⟩ := List.exists_cons_of_ne_nil h.some
  rw [List.cons_append] at htake ⊢
  unfold readNumber
  simp only [h.digits c List.mem_cons_self, htake, Bool.not_true, Bool.false_eq_true, if_false]
  rw [← List.cons_append, List.drop_left]

theorem readNumber_eq_ok (hmost : 0 < most) : readNumber most cs = .ok (n, rest) ↔
    ∃ ds, cs = ds ++ rest ∧ Takes most ds rest ∧ valueOfDigits 0 ds ≤ readLimit ∧
      n = valueOfDigits 0 ds := by
  obtain ⟨most, rfl⟩ := Nat.exists_eq_succ_of_ne_zero (Nat.ne_of_gt hmost)
  constructor
  · intro h
    cases cs with
    | nil => cases h
    | cons c cs =>
        by_cases hc : isDigit c
        · obtain ⟨ds, rest', hcs, htakes⟩ := exists_takes most hc cs
          rw [hcs, htakes.readNumber_eq] at h
          split at h
          · cases h
          · rename_i hlimit
            cases h
            exact ⟨ds, hcs, htakes, Nat.not_lt.mp hlimit, rfl⟩
        · unfold readNumber at h
          simp only [hc, Bool.not_false, if_true] at h
          cases h
  · rintro ⟨ds, rfl, htakes, hlimit, rfl⟩
    rw [htakes.readNumber_eq, if_neg (Nat.not_lt.mpr hlimit)]

/-! ### White space between the fields -/

/-- The text begins with a digit. -/
def BeginsWithDigit (cs : List Char) : Prop := ∃ c ∈ cs.head?, isDigit c

theorem beginsWithDigit_of_readNumber {p : Nat × List Char} (h : readNumber most cs = .ok p) :
    BeginsWithDigit cs := by
  cases cs with
  | nil => cases h
  | cons c cs =>
      by_cases hc : isDigit c
      · exact ⟨c, rfl, hc⟩
      · unfold readNumber at h
        simp only [hc, Bool.not_false, if_true] at h
        cases h

/-- A field in front of another one: its digits, and white space, which is needed where there is room
for more digits. -/
structure IsField (most : Nat) (ds gap : List Char) : Prop where
  digits : ∀ c ∈ ds, isDigit c
  some : ds ≠ []
  room : ds.length ≤ most
  blanks : ∀ c ∈ gap, isBlank c
  apart : ds.length < most → gap ≠ []

/-- In front of a digit a field takes its digits and the white space behind them is dropped. -/
theorem takes_iff_isField (htail : BeginsWithDigit tail) :
    (Takes most ds rest ∧ dropBlanks rest = tail) ↔ ∃ gap, rest = gap ++ tail ∧ IsField most ds gap := by
  obtain ⟨c, hhead, hc⟩ := htail
  have hblank := isBlank_of_isDigit hc
  constructor
  · rintro ⟨h, rfl⟩
    refine ⟨rest.takeWhile isBlank, (List.takeWhile_append_dropWhile ..).symm, h.digits, h.some,
      h.room, fun c hc => List.mem_takeWhile_imp hc, fun hroom hnil => ?_⟩
    -- Without white space the digit of the next field would have been taken.
    have hrest : dropBlanks rest = rest := by
      have hsplit := List.takeWhile_append_dropWhile (p := isBlank) (l := rest)
      rw [hnil, List.nil_append] at hsplit
      exact hsplit
    rw [hrest] at hhead
    rw [h.all hroom c hhead] at hc
    cases hc
  · rintro ⟨gap, rfl, h⟩
    refine ⟨⟨h.digits, h.some, h.room, fun hroom d hd => ?_⟩, ?_⟩
    · obtain ⟨b, gap, rfl⟩ := List.exists_cons_of_ne_nil (h.apart hroom)
      cases hd
      cases hdigit : isDigit d with
      | false => rfl
      | true =>
          have hblank' := isBlank_of_isDigit hdigit
          rw [h.blanks d List.mem_cons_self] at hblank'
          cases hblank'
    · refine dropBlanks_append h.blanks fun d hd => ?_
      rw [hhead] at hd
      cases hd
      exact hblank

/-! ### Years -/

/-- A year in front of another field: up to four digits, or a sign and as many digits as there are. -/
inductive YearText : List Char → Int → Prop
  | plain {ds gap : List Char} : IsField 4 ds gap → YearText (ds ++ gap) (valueOfDigits 0 ds)
  | plus {ds gap : List Char} : IsField (ds.length + 1) ds gap →
      YearText ('+' :: (ds ++ gap)) (valueOfDigits 0 ds)
  | minus {ds gap : List Char} : IsField (ds.length + 1) ds gap →
      YearText ('-' :: (ds ++ gap)) (-(valueOfDigits 0 ds : Int))

theorem Takes.beginsWithDigit (h : Takes most ds rest) (tail : List Char) :
    BeginsWithDigit (ds ++ tail) := by
  obtain ⟨c, ds, rfl⟩ := List.exists_cons_of_ne_nil h.some
  exact ⟨c, rfl, h.digits c List.mem_cons_self⟩

theorem IsField.beginsWithDigit (h : IsField most ds gap) (tail : List Char) :
    BeginsWithDigit (ds ++ tail) := by
  obtain ⟨c, ds, rfl⟩ := List.exists_cons_of_ne_nil h.some
  exact ⟨c, rfl, h.digits c List.mem_cons_self⟩

/-- A year does not begin with white space. -/
theorem YearText.not_isBlank_head {text : List Char} {y : Int} (h : YearText text y) :
    ∀ c ∈ (text ++ tail).head?, isBlank c = false := by
  intro c hc
  cases h with
  | plain hfield =>
      obtain ⟨d, hd, hdigit⟩ := hfield.beginsWithDigit (_ ++ tail)
      rw [List.append_assoc, hd] at hc
      cases hc
      exact isBlank_of_isDigit hdigit
  | plus hfield =>
      cases hc
      decide
  | minus hfield =>
      cases hc
      decide

/-- There is room for all of the digits behind a sign. -/
theorem takes_length_iff (hrest : rest ≠ []) :
    Takes (ds ++ rest).length ds rest ↔ Takes (ds.length + 1) ds rest := by
  have hlength : 0 < rest.length := List.length_pos_iff.mpr hrest
  have hroom : ds.length < (ds ++ rest).length := by
    rw [List.length_append]
    omega
  exact ⟨fun h => ⟨h.digits, h.some, Nat.le_succ _, fun _ => h.all hroom⟩,
    fun h => ⟨h.digits, h.some, Nat.le_of_lt hroom, fun _ => h.all (Nat.lt_succ_self _)⟩⟩

/-- A number that takes all digits is read in front of a field. -/
theorem readNumber_all (htail : BeginsWithDigit tail) :
    (∃ rest, readNumber cs.length cs = .ok (n, rest) ∧ dropBlanks rest = tail) ↔
      n ≤ readLimit ∧ ∃ ds gap, IsField (ds.length + 1) ds gap ∧ n = valueOfDigits 0 ds ∧
        cs = ds ++ (gap ++ tail) := by
  have htail' : tail ≠ [] := by
    rintro rfl
    obtain ⟨c, hc, -⟩ := htail
    cases hc
  constructor
  · rintro ⟨rest, h, hrest⟩
    have hcs : 0 < cs.length := by
      cases cs with
      | nil => cases h
      | cons c cs => exact Nat.succ_pos _
    obtain ⟨ds, rfl, htakes, hlimit, rfl⟩ := (readNumber_eq_ok hcs).mp h
    have hne : rest ≠ [] := by
      rintro rfl
      exact htail' hrest.symm
    obtain ⟨gap, rfl, hfield⟩ :=
      (takes_iff_isField htail).mp ⟨(takes_length_iff hne).mp htakes, hrest⟩
    exact ⟨hlimit, ds, gap, hfield, rfl, rfl⟩
  · rintro ⟨hlimit, ds, gap, hfield, rfl, rfl⟩
    obtain ⟨htakes, hrest⟩ := (takes_iff_isField htail).mpr ⟨gap, rfl, hfield⟩
    have hne : gap ++ tail ≠ [] := by simp [htail']
    have htakes' := (takes_length_iff hne).mpr htakes
    refine ⟨gap ++ tail, (readNumber_eq_ok ?_).mpr ⟨ds, rfl, htakes', hlimit, rfl⟩, hrest⟩
    have hlength := List.length_pos_iff.mpr hfield.some
    rw [List.length_append]
    omega

theorem readYear_eq_ok {y : Int} : readYear cs = .ok (y, rest) ↔
    (∃ cs' n, cs = '-' :: cs' ∧ readNumber cs'.length cs' = .ok (n, rest) ∧ y = -(n : Int)) ∨
      (∃ cs' n, cs = '+' :: cs' ∧ readNumber cs'.length cs' = .ok (n, rest) ∧ y = (n : Int)) ∨
      ∃ n, readNumber 4 cs = .ok (n, rest) ∧ y = (n : Int) := by
  -- A sign is no digit, so that no text is read in two of the ways.
  have hsign {c : Char} {cs : List Char} {p : Nat × List Char} (hc : isDigit c = false) :
      readNumber 4 (c :: cs) ≠ .ok p := by
    intro h
    obtain ⟨_, hhead, hdigit⟩ := beginsWithDigit_of_readNumber h
    cases hhead
    rw [hc] at hdigit
    cases hdigit
  unfold readYear
  split
  · rename_i cs'
    rw [bind_eq_ok]
    constructor
    · rintro ⟨⟨n, _⟩, h, heq⟩
      cases heq
      exact .inl ⟨cs', n, rfl, h, rfl⟩
    · rintro (⟨_, n, hcs, h, rfl⟩ | ⟨_, n, hcs, -⟩ | ⟨n, h, -⟩)
      · cases hcs
        exact ⟨(n, rest), h, rfl⟩
      · cases hcs
      · exact absurd h (hsign rfl)
  · rename_i cs'
    rw [bind_eq_ok]
    constructor
    · rintro ⟨⟨n, _⟩, h, heq⟩
      cases heq
      exact .inr (.inl ⟨cs', n, rfl, h, rfl⟩)
    · rintro (⟨_, n, hcs, -⟩ | ⟨_, n, hcs, h, rfl⟩ | ⟨n, h, -⟩)
      · cases hcs
      · cases hcs
        exact ⟨(n, rest), h, rfl⟩
      · exact absurd h (hsign rfl)
  · rename_i hminus hplus
    rw [bind_eq_ok]
    constructor
    · rintro ⟨⟨n, _⟩, h, heq⟩
      cases heq
      exact .inr (.inr ⟨n, h, rfl⟩)
    · rintro (⟨cs', n, hcs, -⟩ | ⟨cs', n, hcs, -⟩ | ⟨n, h, rfl⟩)
      · exact absurd hcs (hminus cs')
      · exact absurd hcs (hplus cs')
      · exact ⟨(n, rest), h, rfl⟩

/-- In front of a digit a year is read from its text. -/
theorem readYear_iff_yearText {y : Int} (htail : BeginsWithDigit tail) :
    (∃ rest, readYear cs = .ok (y, rest) ∧ dropBlanks rest = tail) ↔
      y.natAbs ≤ readLimit ∧ ∃ text, YearText text y ∧ cs = text ++ tail := by
  constructor
  · rintro ⟨rest, h, hrest⟩
    rcases readYear_eq_ok.mp h with ⟨cs', n, rfl, hn, rfl⟩ | ⟨cs', n, rfl, hn, rfl⟩ | ⟨n, hn, rfl⟩
    · obtain ⟨hlimit, ds, gap, hfield, rfl, rfl⟩ := (readNumber_all htail).mp ⟨rest, hn, hrest⟩
      exact ⟨by omega, _, .minus hfield, by simp⟩
    · obtain ⟨hlimit, ds, gap, hfield, rfl, rfl⟩ := (readNumber_all htail).mp ⟨rest, hn, hrest⟩
      exact ⟨by omega, _, .plus hfield, by simp⟩
    · obtain ⟨ds, rfl, htakes, hlimit, rfl⟩ := (readNumber_eq_ok (by decide)).mp hn
      obtain ⟨gap, rfl, hfield⟩ := (takes_iff_isField htail).mp ⟨htakes, hrest⟩
      exact ⟨by omega, _, .plain hfield, by simp⟩
  · rintro ⟨hlimit, text, hyear, rfl⟩
    cases hyear with
    | @plain ds gap hfield =>
        obtain ⟨htakes, hrest⟩ := (takes_iff_isField htail).mpr ⟨gap, rfl, hfield⟩
        refine ⟨gap ++ tail, readYear_eq_ok.mpr (.inr (.inr ⟨_, ?_, rfl⟩)), hrest⟩
        exact (readNumber_eq_ok (by decide)).mpr
          ⟨ds, List.append_assoc .., htakes, by omega, rfl⟩
    | @plus ds gap hfield =>
        obtain ⟨rest, hn, hrest⟩ := (readNumber_all htail).mpr
          ⟨by omega, ds, gap, hfield, rfl, rfl⟩
        exact ⟨rest, readYear_eq_ok.mpr (.inr (.inl ⟨_, _, by simp, hn, rfl⟩)), hrest⟩
    | @minus ds gap hfield =>
        obtain ⟨rest, hn, hrest⟩ := (readNumber_all htail).mpr
          ⟨by omega, ds, gap, hfield, rfl, rfl⟩
        exact ⟨rest, readYear_eq_ok.mpr (.inl ⟨_, _, by simp, hn, rfl⟩), hrest⟩

/-! ### The fields one after the other -/

variable {p q : PatternFields}

theorem inRange_eq_ok {lo hi m : Nat} : inRange lo hi n = .ok m ↔ (lo ≤ n ∧ n ≤ hi) ∧ n = m := by
  unfold inRange
  split <;> rename_i h <;> simp only [Bool.and_eq_true, decide_eq_true_eq] at h
  · simp [h]
  · exact ⟨fun h' => (by cases h'), fun h' => absurd h'.1 h⟩

theorem yearInRange_eq_ok {y z : Int} :
    yearInRange y = .ok z ↔ (-2147483648 ≤ y ∧ y ≤ 2147483647) ∧ y = z := by
  unfold yearInRange
  split <;> rename_i h <;> simp only [Bool.and_eq_true, decide_eq_true_eq] at h
  · simp [h]
  · exact ⟨fun h' => (by cases h'), fun h' => absurd h'.1 h⟩

theorem readField_year_eq_ok : readField p .year cs = .ok (q, rest) ↔
    ∃ y, readYear (dropBlanks cs) = .ok (y, rest) ∧ (-2147483648 ≤ y ∧ y ≤ 2147483647) ∧
      q = { p with year := y } := by
  change (readYear (dropBlanks cs) >>= _) = _ ↔ _
  rw [bind_eq_ok]
  constructor
  · rintro ⟨⟨y, rest'⟩, hread, h⟩
    obtain ⟨z, hrange, hq⟩ := bind_eq_ok.mp h
    obtain ⟨hy, rfl⟩ := yearInRange_eq_ok.mp hrange
    cases hq
    exact ⟨y, hread, hy, rfl⟩
  · rintro ⟨y, hread, hy, rfl⟩
    exact ⟨(y, rest), hread, bind_eq_ok.mpr ⟨y, yearInRange_eq_ok.mpr ⟨hy, rfl⟩, rfl⟩⟩

/-- The month and the day are read alike. -/
theorem readTwo_eq_ok {lo hi : Nat} {set : Nat → PatternFields} :
    (do let (n, rest) ← readNumber 2 cs
        return (set (← inRange lo hi n), rest)) = .ok (q, rest) ↔
      ∃ n, readNumber 2 cs = .ok (n, rest) ∧ (lo ≤ n ∧ n ≤ hi) ∧ q = set n := by
  rw [bind_eq_ok]
  constructor
  · rintro ⟨⟨n, rest'⟩, hread, h⟩
    obtain ⟨m, hrange, hq⟩ := bind_eq_ok.mp h
    obtain ⟨hn, rfl⟩ := inRange_eq_ok.mp hrange
    cases hq
    exact ⟨n, hread, hn, rfl⟩
  · rintro ⟨n, hread, hn, rfl⟩
    exact ⟨(n, rest), hread, bind_eq_ok.mpr ⟨n, inRange_eq_ok.mpr ⟨hn, rfl⟩, rfl⟩⟩

theorem readItems_field_eq_ok {f : PatternField} {items : List PatternItem} :
    readItems p (.field f :: items) cs = .ok (q, rest) ↔
      ∃ p' rest', readField p f cs = .ok (p', rest') ∧ readItems p' items rest' = .ok (q, rest) := by
  change (readField p f cs >>= _) = _ ↔ _
  rw [bind_eq_ok]
  exact ⟨fun ⟨⟨p', rest'⟩, h⟩ => ⟨p', rest', h⟩, fun ⟨p', rest', h⟩ => ⟨(p', rest'), h⟩⟩

theorem read_eq_ok {items : List PatternItem} :
    read items cs = .ok p ↔ readItems {} items cs = .ok (p, []) := by
  unfold read
  split <;> rename_i h <;> simp [h]

theorem date_eq_ok {d : Date} : p.date = .ok d ↔ d.civil = ⟨p.year, p.month, p.day⟩ := by
  rw [← Date.ofCivil?_eq_some]
  unfold date
  split <;> rename_i h <;> simp [h]

end PatternFields

open PatternFields in
/-- The three fields of a date are read one after the other, and name the date. -/
theorem Date.ofCompact_eq_ok {s : String} {d : Date} : Date.ofCompact s = .ok d ↔
    ∃ rest rest', readYear (dropBlanks s.toList) = .ok (d.civil.year, rest) ∧
      readNumber 2 (dropBlanks rest) = .ok (d.civil.month, rest') ∧
      readNumber 2 (dropBlanks rest') = .ok (d.civil.day, []) := by
  unfold Date.ofCompact compactPattern
  rw [bind_eq_ok]
  constructor
  · rintro ⟨p, hread, hdate⟩
    rw [read_eq_ok, readItems_field_eq_ok] at hread
    obtain ⟨p₁, rest, hfirst, hread⟩ := hread
    obtain ⟨p₂, rest', hsecond, hread⟩ := readItems_field_eq_ok.mp hread
    obtain ⟨p₃, rest'', hthird, hread⟩ := readItems_field_eq_ok.mp hread
    obtain ⟨y, hyear, -, rfl⟩ := readField_year_eq_ok.mp hfirst
    obtain ⟨m, hmonth, -, rfl⟩ := readTwo_eq_ok.mp hsecond
    obtain ⟨n, hday, -, rfl⟩ := readTwo_eq_ok.mp hthird
    cases hread
    rw [date_eq_ok.mp hdate]
    exact ⟨rest, rest', hyear, hmonth, hday⟩
  · rintro ⟨rest, rest', hyear, hmonth, hday⟩
    obtain ⟨hmonths, hdays⟩ := d.civil_bounds
    have hyears := d.year_bounds
    refine ⟨{ year := d.civil.year, month := d.civil.month, day := d.civil.day }, ?_,
      date_eq_ok.mpr rfl⟩
    rw [read_eq_ok]
    refine readItems_field_eq_ok.mpr ⟨_, rest,
      readField_year_eq_ok.mpr ⟨_, hyear, by omega, rfl⟩, ?_⟩
    refine readItems_field_eq_ok.mpr ⟨_, rest', readTwo_eq_ok.mpr ⟨_, hmonth, hmonths, rfl⟩, ?_⟩
    exact readItems_field_eq_ok.mpr ⟨_, [], readTwo_eq_ok.mpr ⟨_, hday, hdays, rfl⟩, rfl⟩

/-! ### The language -/

open PatternFields in
/-- White space, the year, the month with white space behind it, and the day: the text of a date. -/
def SpellsDate (cs : List Char) (c : CivilDate) : Prop :=
  ∃ front year month gap day, cs = front ++ (year ++ (month ++ (gap ++ day))) ∧
    (∀ b ∈ front, isBlank b) ∧ YearText year c.year ∧
    (IsField 2 month gap ∧ c.month = valueOfDigits 0 month) ∧
    Takes 2 day [] ∧ c.day = valueOfDigits 0 day

open PatternFields in
/-- **A text is read as a date exactly if it spells the date.** -/
theorem Date.ofCompact_eq_ok_iff {s : String} {d : Date} :
    Date.ofCompact s = .ok d ↔ SpellsDate s.toList d.civil := by
  rw [Date.ofCompact_eq_ok]
  constructor
  · rintro ⟨rest, rest', hyear, hmonth, hday⟩
    have hdayText := beginsWithDigit_of_readNumber hday
    have hmonthText := beginsWithDigit_of_readNumber hmonth
    obtain ⟨day, hdayEq, htakesDay, -, hdayValue⟩ := (readNumber_eq_ok (by decide)).mp hday
    obtain ⟨month, hmonthEq, htakes, -, hmonthValue⟩ := (readNumber_eq_ok (by decide)).mp hmonth
    obtain ⟨gap, hgapEq, hfield⟩ := (takes_iff_isField hdayText).mp ⟨htakes, rfl⟩
    obtain ⟨-, year, hyearText, hyearEq⟩ :=
      (readYear_iff_yearText hmonthText).mp ⟨rest, hyear, rfl⟩
    refine ⟨s.toList.takeWhile isBlank, year, month, gap, day, ?_,
      fun b hb => List.mem_takeWhile_imp hb, hyearText, ⟨hfield, hmonthValue⟩, htakesDay, hdayValue⟩
    rw [List.append_nil] at hdayEq
    rw [← hdayEq, ← hgapEq, ← hmonthEq, ← hyearEq]
    exact (List.takeWhile_append_dropWhile ..).symm
  · rintro ⟨front, year, month, gap, day, hs, hfront, hyear, ⟨hmonth, hmonthValue⟩, hday, hdayValue⟩
    obtain ⟨hmonths, hdays⟩ := d.civil_bounds
    have hyears := d.year_bounds
    have hlimit : 300000 ≤ readLimit := by decide
    have hdayText := hday.beginsWithDigit []
    rw [List.append_nil] at hdayText
    obtain ⟨htakes, hdrop⟩ := (takes_iff_isField hdayText).mpr ⟨gap, rfl, hmonth⟩
    obtain ⟨rest, hreadYear, hrest⟩ :=
      (readYear_iff_yearText (hmonth.beginsWithDigit (gap ++ day))).mpr
        ⟨by omega, year, hyear, rfl⟩
    refine ⟨rest, gap ++ day, ?_, ?_, ?_⟩
    · rw [hs, dropBlanks_append hfront hyear.not_isBlank_head]
      exact hreadYear
    · rw [hrest]
      exact (readNumber_eq_ok (by decide)).mpr ⟨month, rfl, htakes, by omega, hmonthValue⟩
    · rw [hdrop]
      exact (readNumber_eq_ok (by decide)).mpr
        ⟨day, (List.append_nil day).symm, hday, by omega, hdayValue⟩

/-! ### Texts of digits -/

section Digits

open PatternFields

variable {cs : List Char} {c : CivilDate}

/-- White space among digits is none. -/
theorem eq_nil_of_isBlank_of_isDigit {ds : List Char} (h : ∀ c ∈ ds, isBlank c)
    (hdigits : ∀ c ∈ ds, isDigit c) : ds = [] := by
  cases ds with
  | nil => rfl
  | cons c ds =>
      have hc := h c List.mem_cons_self
      rw [isBlank_of_isDigit (hdigits c List.mem_cons_self)] at hc
      cases hc

/-- A field that nothing sets apart from the next one fills its room. -/
theorem PatternFields.IsField.length_eq {most : Nat} {ds gap : List Char} (h : IsField most ds gap)
    (hgap : gap = []) : ds.length = most := by
  have hroom := h.room
  have hfull : ¬ ds.length < most := fun hlt => h.apart hlt hgap
  omega

/-- Digits that fill the room of a field need nothing to set them apart. -/
theorem PatternFields.isField_of_length_eq {most : Nat} {ds : List Char} (hmost : 0 < most)
    (hlength : ds.length = most) (hdigits : ∀ b ∈ ds, isDigit b) : IsField most ds [] :=
  ⟨hdigits, List.length_pos_iff.mp (by omega), Nat.le_of_eq hlength, by simp, fun hlt => by omega⟩

/-- A text of digits spells a date with four of them for the year, two for the month, and the one or
two that are left for the day. -/
theorem spellsDate_iff_of_digits (hdigits : ∀ b ∈ cs, isDigit b) : SpellsDate cs c ↔
    ∃ year month day, cs = year ++ (month ++ day) ∧ year.length = 4 ∧ month.length = 2 ∧
      (day.length = 1 ∨ day.length = 2) ∧
      c = ⟨valueOfDigits 0 year, valueOfDigits 0 month, valueOfDigits 0 day⟩ := by
  obtain ⟨y, m, n⟩ := c
  constructor
  · rintro ⟨front, year, month, gap, day, rfl, hfront, hyear, ⟨hmonth, rfl⟩, hday, rfl⟩
    simp only [List.mem_append] at hdigits
    obtain rfl : front = [] :=
      eq_nil_of_isBlank_of_isDigit hfront fun b hb => hdigits b (.inl hb)
    obtain rfl : gap = [] :=
      eq_nil_of_isBlank_of_isDigit hmonth.blanks fun b hb => hdigits b (by simp [hb])
    have hlength := List.length_pos_iff.mpr hday.some
    have hroom := hday.room
    dsimp only at hyear
    cases hyear with
    | @plain ds gap' hfield =>
        obtain rfl : gap' = [] :=
          eq_nil_of_isBlank_of_isDigit hfield.blanks fun b hb => hdigits b (by simp [hb])
        exact ⟨ds, month, day, by simp, hfield.length_eq rfl, hmonth.length_eq rfl, by omega, rfl⟩
    | plus => exact absurd (hdigits '+' (by simp)) (by decide)
    | minus => exact absurd (hdigits '-' (by simp)) (by decide)
  · rintro ⟨year, month, day, rfl, hyear, hmonth, hday, hc⟩
    obtain ⟨rfl, rfl, rfl⟩ := CivilDate.mk.inj hc
    simp only [List.mem_append] at hdigits
    have hyearField : IsField 4 year [] :=
      isField_of_length_eq (by decide) hyear fun b hb => hdigits b (.inl hb)
    have hmonthField : IsField 2 month [] :=
      isField_of_length_eq (by decide) hmonth fun b hb => hdigits b (.inr (.inl hb))
    have hyearText := YearText.plain hyearField
    rw [List.append_nil] at hyearText
    exact ⟨[], year, month, [], day, rfl, by simp, hyearText, ⟨hmonthField, rfl⟩,
      ⟨fun b hb => hdigits b (.inr (.inr hb)), List.length_pos_iff.mp (by omega), by omega, by simp⟩,
      rfl⟩

/-- **Eight digits spell the date that is written so**, and no other. -/
theorem spellsDate_iff_compact {s : String} {d : Date} (hlength : s.toList.length = 8)
    (hdigits : ∀ c ∈ s.toList, isDigit c) : SpellsDate s.toList d.civil ↔ d.compact = s := by
  constructor
  · intro h
    obtain ⟨year, month, day, hs, hyear, hmonth, hday, hcivil⟩ :=
      (spellsDate_iff_of_digits hdigits).mp h
    rw [hs] at hlength hdigits
    simp only [List.length_append, List.mem_append] at hlength hdigits
    have hday' : day.length = 2 := by omega
    have hyearDigits : ∀ c ∈ year, isDigit c := fun c hc => hdigits c (.inl hc)
    have hpad {ds : List Char} {k : Nat} (hk : ds.length = k + 1) (hds : ∀ c ∈ ds, isDigit c) :
        paddedDigits (k + 1) (valueOfDigits 0 ds) = ds := by
      rw [← hk]
      exact paddedDigits_valueOfDigits (List.length_pos_iff.mp (by omega)) hds
    have hlt := valueOfDigits_lt hyearDigits 0
    rw [hyear] at hlt
    apply String.toList_inj.mp
    rw [Date.toList_compact (by rw [hcivil]; dsimp only; omega), hs, hcivil, List.append_nil]
    dsimp only
    rw [Int.natAbs_natCast, hpad hyear hyearDigits,
      hpad hmonth fun c hc => hdigits c (.inr (.inl hc)),
      hpad hday' fun c hc => hdigits c (.inr (.inr hc))]
  · rintro rfl
    exact Date.ofCompact_eq_ok_iff.mp (Date.ofCompact_compact (Date.year_of_all_isDigit hdigits))

end Digits

end DailyBars
