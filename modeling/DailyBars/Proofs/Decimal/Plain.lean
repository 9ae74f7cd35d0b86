import DailyBars.Decimal.Reader
import DailyBars.Proofs.Text.Digits

/-!
# Decimals in plain notation

A decimal is written as its digits, with a point before those of its scale and perhaps with a sign.
Each of these texts is read as the decimal, its scale included, and the text that the decimal itself
has is one of them.
-/

namespace DailyBars

namespace Decimal

open Text

/-- The sign of a number, which may be missing. -/
def IsSign (sign : List Char) : Prop := sign = [] ∨ sign = ['+'] ∨ sign = ['-']

/-- The decimal has a mantissa and a scale, and a sign unless it is zero. -/
structure Shows (d : Decimal) (sign ds : List Char) (scale : Nat) : Prop where
  mantissa : d.mantissa = valueOfDigits 0 ds
  scale : d.scale = scale
  negative : d.negative = (decide (sign = ['-']) && d.mantissa != 0)

/-- The texts in plain notation that write a decimal. -/
inductive IsPlain (d : Decimal) : List Char → Prop
  | whole {sign ds : List Char} : IsSign sign → (∀ c ∈ ds, isDigit c) → ds ≠ [] →
      d.Shows sign ds 0 → IsPlain d (sign ++ ds)
  | point {sign ds fraction : List Char} : IsSign sign → (∀ c ∈ ds ++ fraction, isDigit c) →
      ds ++ fraction ≠ [] → d.Shows sign (ds ++ fraction) fraction.length →
      IsPlain d (sign ++ (ds ++ '.' :: fraction))

variable {d : Decimal} {negative seen : Bool} {m k : Nat} {sign ds rest : List Char}

namespace Shows

theorem make?_eq (h : d.Shows sign ds k) :
    make? (decide (sign = ['-'])) (valueOfDigits 0 ds) k = some d := by
  have hbounds : valueOfDigits 0 ds < Nat.pow 2 96 ∧ k ≤ 28 :=
    ⟨h.mantissa ▸ d.mantissa_lt, h.scale ▸ d.scale_le⟩
  obtain ⟨negative, mantissa, scale, _, _, _⟩ := d
  obtain ⟨hmantissa, hscale, hnegative⟩ := h
  dsimp only at hmantissa hscale hnegative
  subst hmantissa hscale hnegative
  exact dif_pos hbounds

theorem fits (h : d.Shows sign ds k) : valueOfDigits 0 ds ≤ maxMantissa := by
  rw [← h.mantissa]
  exact Nat.le_sub_one_of_lt d.mantissa_lt

end Shows

/-! ### Scanning digits -/

/-- Digits in front of the point. -/
theorem scan_whole (h : ∀ c ∈ ds, isDigit c) (hfits : valueOfDigits m ds ≤ maxMantissa) :
    scan negative ⟨m, 0, false, seen⟩ (ds ++ rest) =
      scan negative ⟨valueOfDigits m ds, 0, false, seen || !ds.isEmpty⟩ rest := by
  induction ds generalizing m seen with
  | nil => rw [List.nil_append, valueOfDigits_nil, List.isEmpty_nil, Bool.not_true, Bool.or_false]
  | cons c ds ih =>
      have hc : isDigit c := h c List.mem_cons_self
      have hle : m * 10 + digitValue c ≤ maxMantissa := Nat.le_trans (le_valueOfDigits _ ds) hfits
      have hrest := @ih true (m * 10 + digitValue c) (fun e he => h e (List.mem_cons_of_mem _ he)) hfits
      rw [List.cons_append, scan]
      simp only [hc, if_pos hle, hrest, valueOfDigits_cons, Bool.false_and, Bool.false_eq_true, if_false,
        if_true, Bool.true_or, List.isEmpty_cons, Bool.not_false, Bool.or_true]

/-- Digits after the point, as many as a decimal keeps. -/
theorem scan_fraction (h : ∀ c ∈ ds, isDigit c) (hfits : valueOfDigits m ds ≤ maxMantissa)
    (hscale : k + ds.length ≤ maxScale) (hseen : seen = true ∨ ds ≠ []) :
    scan negative ⟨m, k, true, seen⟩ ds = make? negative (valueOfDigits m ds) (k + ds.length) := by
  induction ds generalizing m k seen with
  | nil =>
      obtain rfl := hseen.resolve_right fun hne => hne rfl
      rfl
  | cons c ds ih =>
      have hc : isDigit c := h c List.mem_cons_self
      have hle : m * 10 + digitValue c ≤ maxMantissa := Nat.le_trans (le_valueOfDigits _ ds) hfits
      rw [List.length_cons] at hscale
      have hroom : ¬ maxScale ≤ k := by omega
      have hrest := @ih true (m * 10 + digitValue c) (k + 1)
        (fun e he => h e (List.mem_cons_of_mem _ he)) hfits (by omega) (.inl rfl)
      rw [scan]
      simp only [hc, if_pos hle, hroom, hrest, valueOfDigits_cons, decide_false, Bool.and_false,
        Bool.false_eq_true, if_false, if_true, List.length_cons, Nat.add_assoc, Nat.add_comm 1]

/-- A sign in front of a digit or a point. -/
theorem ofPlain?_append (hsign : IsSign sign)
    (hrest : ∀ c ∈ rest.head?, c ≠ '-' ∧ c ≠ '+') :
    ofPlain? (sign ++ rest) = scan (decide (sign = ['-'])) {} rest := by
  rcases hsign with rfl | rfl | rfl
  · rw [List.nil_append]
    unfold ofPlain?
    split
    · exact absurd rfl (hrest '-' rfl).1
    · exact absurd rfl (hrest '+' rfl).2
    · rfl
  · rfl
  · rfl

theorem ne_sign_of_isDigit {c : Char} (h : isDigit c) : c ≠ '-' ∧ c ≠ '+' := by
  constructor <;> rintro rfl <;> cases h

/-- **A decimal in plain notation is read as it is written**, with all its digits after the point. -/
theorem IsPlain.ofText?_eq {cs : List Char} (h : IsPlain d cs) : ofText? (String.ofList cs) = some d := by
  suffices hplain : ofPlain? cs = some d by
    rw [ofText?, String.toList_ofList, hplain]
  cases h with
  | @whole sign ds hsign hds hne hshows =>
      have hfirst : ∀ c ∈ ds.head?, c ≠ '-' ∧ c ≠ '+' :=
        fun c hc => ne_sign_of_isDigit (hds c (List.mem_of_mem_head? hc))
      have hscan : scan (decide (sign = ['-'])) {} (ds ++ []) =
          scan _ ⟨valueOfDigits 0 ds, 0, false, !ds.isEmpty⟩ [] := scan_whole hds hshows.fits
      rw [List.append_nil] at hscan
      rw [ofPlain?_append hsign hfirst, hscan, scan]
      simpa [hne] using hshows.make?_eq
  | @point sign ds fraction hsign hall hne hshows =>
      have hds : ∀ c ∈ ds, isDigit c := fun c hc => hall c (List.mem_append_left _ hc)
      have hfraction : ∀ c ∈ fraction, isDigit c := fun c hc => hall c (List.mem_append_right _ hc)
      have hfirst : ∀ c ∈ (ds ++ '.' :: fraction).head?, c ≠ '-' ∧ c ≠ '+' := by
        cases ds with
        | nil =>
            intro c hc
            cases hc
            decide
        | cons c ds =>
            intro e he
            cases he
            exact ne_sign_of_isDigit (hds _ List.mem_cons_self)
      have hfits : valueOfDigits (valueOfDigits 0 ds) fraction ≤ maxMantissa := by
        rw [← valueOfDigits_append]
        exact hshows.fits
      have hscale : fraction.length ≤ maxScale := hshows.scale ▸ d.scale_le
      have hwhole : scan (decide (sign = ['-'])) {} (ds ++ '.' :: fraction) =
          scan _ ⟨valueOfDigits 0 ds, 0, false, !ds.isEmpty⟩ ('.' :: fraction) :=
        scan_whole hds (Nat.le_trans (le_valueOfDigits _ fraction) hfits)
      have hseen : (!ds.isEmpty) = true ∨ fraction ≠ [] := by
        cases ds with
        | nil => exact .inr hne
        | cons => exact .inl rfl
      have htail : scan (decide (sign = ['-'])) ⟨valueOfDigits 0 ds, 0, true, !ds.isEmpty⟩ fraction =
          make? _ (valueOfDigits (valueOfDigits 0 ds) fraction) (0 + fraction.length) :=
        scan_fraction hfraction hfits (by omega) hseen
      rw [ofPlain?_append hsign hfirst, hwhole, scan]
      simp only [Bool.false_and, Bool.false_eq_true, if_false]
      rw [if_neg (by decide), if_pos (by decide), htail, ← valueOfDigits_append, Nat.zero_add]
      exact hshows.make?_eq

/-- The text of a decimal is in plain notation. -/
theorem isPlain_digits (d : Decimal) : IsPlain d d.digits := by
  obtain ⟨ds, hds⟩ : ∃ ds, ds = paddedDigits (d.scale + 1) d.mantissa := ⟨_, rfl⟩
  have hall : ∀ c ∈ ds, isDigit c := hds ▸ all_isDigit_paddedDigits _ _
  have hvalue : valueOfDigits 0 ds = d.mantissa := hds ▸ valueOfDigits_paddedDigits _ _
  have hlength : d.scale < ds.length := by
    rw [hds, paddedDigits, List.length_append, List.length_replicate]
    omega
  have hne : ds ≠ [] := by
    rintro rfl
    exact absurd hlength (Nat.not_lt_zero _)
  obtain ⟨sign, hsign, hnegative, htext⟩ : ∃ sign, IsSign sign ∧
      d.negative = (decide (sign = ['-']) && d.mantissa != 0) ∧
      ∀ body : List Char, (if d.negative then '-' :: body else body) = sign ++ body := by
    cases hneg : d.negative with
    | false => exact ⟨[], .inl rfl, rfl, fun _ => rfl⟩
    | true =>
        have hzero : d.mantissa ≠ 0 := by
          intro h
          rw [d.zero_sign h] at hneg
          cases hneg
        exact ⟨['-'], .inr (.inr rfl), by simpa using hzero, fun _ => rfl⟩
  unfold digits
  rw [htext, ← hds]
  by_cases hscale : d.scale = 0
  · rw [if_pos hscale]
    exact .whole hsign hall hne ⟨hvalue.symm, hscale, hnegative⟩
  · rw [if_neg hscale]
    have hsplit : ds.take (ds.length - d.scale) ++ ds.drop (ds.length - d.scale) = ds :=
      List.take_append_drop _ ds
    have hkept : (ds.drop (ds.length - d.scale)).length = d.scale := by
      rw [List.length_drop]
      omega
    exact .point hsign (hsplit.symm ▸ hall) (hsplit.symm ▸ hne)
      ⟨by rw [hsplit, hvalue], hkept.symm, hnegative⟩

/-- **A decimal is read back from its text.** -/
theorem ofText?_text (d : Decimal) : ofText? d.text = some d := (isPlain_digits d).ofText?_eq

end Decimal

end DailyBars
