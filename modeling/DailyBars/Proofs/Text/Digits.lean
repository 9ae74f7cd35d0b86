import DailyBars.Text.Digits
import Mathlib.Algebra.Group.Nat.Defs
import Mathlib.Logic.Function.Basic

/-!
# Numbers in base ten

The digits of a number have the number as their value, so no two numbers are written alike.
-/

namespace DailyBars.Text

theorem digitValue_digitChar {d : Nat} (h : d < 10) : digitValue (digitChar d) = d := by
  have hall : ∀ e < 10, digitValue (digitChar e) = e := by decide
  exact hall d h

theorem valueOfDigits_nil (acc : Nat) : valueOfDigits acc [] = acc := rfl

theorem valueOfDigits_cons (acc : Nat) (c : Char) (cs : List Char) :
    valueOfDigits acc (c :: cs) = valueOfDigits (acc * 10 + digitValue c) cs := by
  exact Eq.refl (valueOfDigits (acc * 10 + digitValue c) cs)

/-- More digits make no smaller number. -/
theorem le_valueOfDigits (acc : Nat) (ds : List Char) : acc ≤ valueOfDigits acc ds := by
  induction ds generalizing acc with
  | nil => exact Nat.le_refl acc
  | cons c ds ih => exact Nat.le_trans (by omega) (ih (acc * 10 + digitValue c))

theorem valueOfDigits_append (acc : Nat) (ds es : List Char) :
    valueOfDigits acc (ds ++ es) = valueOfDigits (valueOfDigits acc ds) es := by
  induction ds generalizing acc with
  | nil => rfl
  | cons c ds ih => exact ih _

/-- **The digits of a number have it as their value.** -/
theorem valueOfDigits_digitsOf (n : Nat) : valueOfDigits 0 (digitsOf n) = n := by
  induction n using digitsOf.induct with
  | case1 n h =>
      rw [digitsOf, if_pos h]
      change 0 * 10 + digitValue (digitChar n) = n
      rw [digitValue_digitChar h]
      omega
  | case2 n h ih =>
      rw [digitsOf, if_neg h, valueOfDigits_append, ih]
      change n / 10 * 10 + digitValue (digitChar (n % 10)) = n
      rw [digitValue_digitChar (Nat.mod_lt n (by decide))]
      omega

/-! ### Runs of digits -/

theorem isDigit_iff {c : Char} : isDigit c ↔ 48 ≤ c.toNat ∧ c.toNat ≤ 57 := by
  simp only [isDigit, Bool.and_eq_true, decide_eq_true_eq]
  exact Iff.rfl

theorem isDigit_digitChar {d : Nat} (h : d < 10) : isDigit (digitChar d) := by
  have hall : ∀ e < 10, isDigit (digitChar e) := by decide
  exact hall d h

theorem all_isDigit_digitsOf (n : Nat) : ∀ c ∈ digitsOf n, isDigit c := by
  induction n using digitsOf.induct with
  | case1 n h =>
      rw [digitsOf, if_pos h]
      simpa using isDigit_digitChar h
  | case2 n h ih =>
      rw [digitsOf, if_neg h]
      intro c hc
      rcases List.mem_append.mp hc with hc | hc
      · exact ih c hc
      · rw [List.mem_singleton.mp hc]
        exact isDigit_digitChar (Nat.mod_lt n (by decide))

theorem digitsOf_ne_nil (n : Nat) : digitsOf n ≠ [] := by
  rw [digitsOf]
  split <;> simp

/-- No zero stands in front of other digits. -/
theorem not_leading_zero (n : Nat) :
    ¬ ((digitsOf n).head? = some '0' ∧ 1 < (digitsOf n).length) := by
  have hfirst : 0 < n → (digitsOf n).head? ≠ some '0' := by
    induction n using digitsOf.induct with
    | case1 n h =>
        have hall : ∀ e < 10, 0 < e → [digitChar e].head? ≠ some '0' := by decide
        rw [digitsOf, if_pos h]
        exact hall n h
    | case2 n h ih =>
        have hrest := ih (by omega)
        obtain ⟨c, cs, hcs⟩ := List.exists_cons_of_ne_nil (digitsOf_ne_nil (n / 10))
        rw [hcs] at hrest
        rw [digitsOf, if_neg h, hcs]
        exact fun _ => hrest
  rintro ⟨hhead, hlength⟩
  rcases Nat.eq_zero_or_pos n with rfl | hpos
  · rw [digitsOf, if_pos (by decide)] at hlength
    exact absurd hlength (by simp)
  · exact hfirst hpos hhead

theorem length_digitsOf_le {width n : Nat} (hpos : 1 ≤ width) (h : n < 10 ^ width) :
    (digitsOf n).length ≤ width := by
  induction width generalizing n with
  | zero => omega
  | succ width ih =>
      rw [digitsOf]
      split
      · exact hpos
      · rename_i hbig
        have hwidth : 1 ≤ width := by
          rcases Nat.eq_zero_or_pos width with rfl | hw
          · omega
          · exact hw
        rw [List.length_append, List.length_singleton]
        exact Nat.succ_le_succ (ih hwidth (by rw [Nat.pow_succ] at h; omega))

section Padded

variable {width n : Nat}

theorem length_paddedDigits (hpos : 1 ≤ width) (h : n < 10 ^ width) :
    (paddedDigits width n).length = width := by
  have := length_digitsOf_le hpos h
  unfold paddedDigits
  rw [List.length_append, List.length_replicate]
  omega

theorem all_isDigit_paddedDigits (width n : Nat) : ∀ c ∈ paddedDigits width n, isDigit c := by
  intro c hc
  rcases List.mem_append.mp hc with hc | hc
  · rw [List.eq_of_mem_replicate hc]
    rfl
  · exact all_isDigit_digitsOf n c hc

/-- Zeros in front do not count. -/
theorem valueOfDigits_paddedDigits (width n : Nat) : valueOfDigits 0 (paddedDigits width n) = n := by
  have hzeros (k : Nat) : valueOfDigits 0 (List.replicate k '0') = 0 := by
    induction k with
    | zero => rfl
    | succ k ih => exact ih
  unfold paddedDigits
  rw [valueOfDigits_append, hzeros, valueOfDigits_digitsOf]

theorem digitValue_lt {c : Char} (h : isDigit c) : digitValue c < 10 := by
  obtain ⟨hlow, hhigh⟩ := isDigit_iff.mp h
  change c.toNat - 48 < 10
  omega

/-- Runs of digits of one length have one value only if they are the same. -/
theorem eq_of_valueOfDigits_eq {ds es : List Char} {a b : Nat} (hlength : ds.length = es.length)
    (hds : ∀ c ∈ ds, isDigit c) (hes : ∀ c ∈ es, isDigit c)
    (h : valueOfDigits a ds = valueOfDigits b es) : a = b ∧ ds = es := by
  induction ds generalizing es a b with
  | nil =>
      cases es with
      | nil => exact ⟨h, rfl⟩
      | cons e es => cases hlength
  | cons c ds ih =>
      cases es with
      | nil => cases hlength
      | cons e es =>
          have hc := hds c List.mem_cons_self
          have he := hes e List.mem_cons_self
          obtain ⟨hvalue, rfl⟩ := ih (Nat.succ.inj hlength)
            (fun d hd => hds d (List.mem_cons_of_mem _ hd))
            (fun d hd => hes d (List.mem_cons_of_mem _ hd)) h
          have hclt := digitValue_lt hc
          have helt := digitValue_lt he
          have hdigit : digitValue c = digitValue e := by omega
          rw [isDigit_iff] at hc he
          have hchar : c = e := by
            apply Char.toNat_inj.mp
            change c.toNat - 48 = e.toNat - 48 at hdigit
            omega
          exact ⟨by omega, by rw [hchar]⟩

theorem valueOfDigits_lt {ds : List Char} (h : ∀ c ∈ ds, isDigit c) (acc : Nat) :
    valueOfDigits acc ds < (acc + 1) * 10 ^ ds.length := by
  induction ds generalizing acc with
  | nil => simp [valueOfDigits_nil]
  | cons c ds ih =>
      have hc := digitValue_lt (h c List.mem_cons_self)
      have hrest := ih (fun d hd => h d (List.mem_cons_of_mem _ hd)) (acc * 10 + digitValue c)
      rw [valueOfDigits_cons, List.length_cons, Nat.pow_succ']
      calc valueOfDigits (acc * 10 + digitValue c) ds
          < (acc * 10 + digitValue c + 1) * 10 ^ ds.length := hrest
        _ ≤ ((acc + 1) * 10) * 10 ^ ds.length := Nat.mul_le_mul_right _ (by omega)
        _ = (acc + 1) * (10 * 10 ^ ds.length) := Nat.mul_assoc ..

/-- A run of digits is the value it has, padded to its length. -/
theorem paddedDigits_valueOfDigits {ds : List Char} (hne : ds ≠ []) (h : ∀ c ∈ ds, isDigit c) :
    paddedDigits ds.length (valueOfDigits 0 ds) = ds := by
  have hlt := valueOfDigits_lt h 0
  rw [Nat.zero_add, Nat.one_mul] at hlt
  exact (eq_of_valueOfDigits_eq (length_paddedDigits (List.length_pos_iff.mpr hne) hlt)
    (all_isDigit_paddedDigits _ _) h (valueOfDigits_paddedDigits _ _)).2

end Padded

theorem injective_decimalText : Function.Injective decimalText := by
  intro m n h
  have hdigits : digitsOf m = digitsOf n := String.ofList_injective h
  rw [← valueOfDigits_digitsOf m, ← valueOfDigits_digitsOf n, hdigits]

end DailyBars.Text
