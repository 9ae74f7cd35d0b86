import DailyBars.Cipher.Base64
import DailyBars.Text.Characters
import Mathlib.Algebra.Group.Nat.Defs

/-!
# Bytes and the characters that write them

`Writes` is the format: groups of three bytes as four characters of six bits each, the last group
filled up. Bytes are written in one way only, and this is how they are encoded (`writes_encode`). Each
of the 64 characters has its value and none is the one that pads, so reading what was written gives the
bytes back (`ofText?_text`), and nothing else is read (`ofText?_eq_some`).
-/

namespace DailyBars.Base64

theorem valueOf?_charOf : ∀ n < 64, valueOf? (charOf n) = some n := by
  decide +kernel

theorem charOf_ne_pad : ∀ n < 64, charOf n ≠ '=' := by
  decide +kernel

/-- Reading four characters that do not pad. -/
theorem decode?_four {a b c d : Nat} (ha : a < 64) (hb : b < 64) (hc : c < 64) (hd : d < 64)
    (rest : List Char) :
    decode? (charOf a :: charOf b :: charOf c :: charOf d :: rest) =
      (decode? rest).map (bytesOfFour a b c d ++ ·) := by
  rw [decode?]
  · simp only [valueOf?_charOf a ha, valueOf?_charOf b hb, valueOf?_charOf c hc,
      valueOf?_charOf d hd]
  · intro hpad
    exact absurd hpad (charOf_ne_pad c hc)
  · intro hpad
    exact absurd hpad (charOf_ne_pad d hd)

theorem decode?_encode (bs : List UInt8) : decode? (encode bs) = some bs := by
  fun_induction encode bs with
  | case1 => rfl
  | case2 a =>
      -- A group that is filled up is read only if it was filled up with zeros.
      have ha := a.toNat_lt
      rw [decode?, valueOf?_charOf _ (by omega), valueOf?_charOf _ (by omega)]
      have hfirst : a.toNat / 4 * 4 + a.toNat % 4 * 16 / 16 = a.toNat := by omega
      have hrest : a.toNat % 4 * 16 % 16 = 0 := by omega
      simp only [hfirst, hrest, if_true, UInt8.ofNat_toNat]
  | case3 a b =>
      have ha := a.toNat_lt
      have hb := b.toNat_lt
      rw [decode?, valueOf?_charOf _ (by omega), valueOf?_charOf _ (by omega),
        valueOf?_charOf _ (by omega)]
      · have hfirst : a.toNat / 4 * 4 + (a.toNat % 4 * 16 + b.toNat / 16) / 16 = a.toNat := by omega
        have hsecond : (a.toNat % 4 * 16 + b.toNat / 16) % 16 * 16 + b.toNat % 16 * 4 / 4 =
            b.toNat := by omega
        have hrest : b.toNat % 16 * 4 % 4 = 0 := by omega
        simp only [hfirst, hsecond, hrest, if_true, UInt8.ofNat_toNat]
      · exact fun hpad => charOf_ne_pad _ (by omega) hpad
  | case4 a b c rest ih =>
      have ha := a.toNat_lt
      have hb := b.toNat_lt
      have hc := c.toNat_lt
      rw [decode?_four (by omega) (by omega) (by omega) (by omega), ih]
      have hfirst : a.toNat / 4 * 4 + (a.toNat % 4 * 16 + b.toNat / 16) / 16 = a.toNat := by omega
      have hsecond : (a.toNat % 4 * 16 + b.toNat / 16) % 16 * 16 +
          (b.toNat % 16 * 4 + c.toNat / 64) / 4 = b.toNat := by omega
      have hthird : (b.toNat % 16 * 4 + c.toNat / 64) % 4 * 64 + c.toNat % 64 = c.toNat := by omega
      simp only [bytesOfFour, hfirst, hsecond, hthird, UInt8.ofNat_toNat]
      rfl

/-! ### The format -/

/-- The 64 characters, in the order of their values. -/
def alphabet : List Char :=
  "ABCDEFGHIJKLMNOPQRSTUVWXYZabcdefghijklmnopqrstuvwxyz0123456789+/".toList

/-- Bytes and the characters that write them, by groups of three bytes: the 24 bits of a group are cut
into four sixes. A last group of one byte or of two is filled up with zero bits to the next six, and
with padding to four characters. -/
inductive Writes : List UInt8 → List Char → Prop where
  | nil : Writes [] []
  | one {a : UInt8} {p q : Nat} {w x : Char} :
      alphabet[p]? = some w → alphabet[q]? = some x → a.toNat * 2 ^ 4 = p * 2 ^ 6 + q →
      Writes [a] [w, x, '=', '=']
  | two {a b : UInt8} {p q r : Nat} {w x y : Char} :
      alphabet[p]? = some w → alphabet[q]? = some x → alphabet[r]? = some y →
      (a.toNat * 2 ^ 8 + b.toNat) * 2 ^ 2 = p * 2 ^ 12 + q * 2 ^ 6 + r →
      Writes [a, b] [w, x, y, '=']
  | three {a b c : UInt8} {p q r s : Nat} {w x y z : Char} {bs : List UInt8} {cs : List Char} :
      alphabet[p]? = some w → alphabet[q]? = some x → alphabet[r]? = some y →
      alphabet[s]? = some z →
      a.toNat * 2 ^ 16 + b.toNat * 2 ^ 8 + c.toNat = p * 2 ^ 18 + q * 2 ^ 12 + r * 2 ^ 6 + s →
      Writes bs cs → Writes (a :: b :: c :: bs) (w :: x :: y :: z :: cs)

theorem alphabet_charOf : ∀ n < 64, alphabet[n]? = some (charOf n) := by
  decide +kernel

theorem lt_of_alphabet {c : Char} {n : Nat} (h : alphabet[n]? = some c) : n < 64 :=
  (List.getElem?_eq_some_iff.mp h).1

theorem eq_charOf_of_alphabet {c : Char} {n : Nat} (h : alphabet[n]? = some c) : c = charOf n :=
  Option.some.inj (h.symm.trans (alphabet_charOf n (lt_of_alphabet h)))

/-! ### What is written -/

theorem writes_encode (bs : List UInt8) : Writes bs (encode bs) := by
  have hchar {n : Nat} (hn : n < 64) : alphabet[n]? = some (charOf n) := alphabet_charOf n hn
  fun_induction encode bs with
  | case1 => exact .nil
  | case2 a =>
      have ha := a.toNat_lt
      exact .one (hchar (by omega)) (hchar (by omega)) (by omega)
  | case3 a b =>
      have ha := a.toNat_lt
      have hb := b.toNat_lt
      exact .two (hchar (by omega)) (hchar (by omega)) (hchar (by omega)) (by omega)
  | case4 a b c rest ih =>
      have ha := a.toNat_lt
      have hb := b.toNat_lt
      have hc := c.toNat_lt
      exact .three (hchar (by omega)) (hchar (by omega)) (hchar (by omega)) (hchar (by omega))
        (by omega) ih

theorem writes_text (bs : List UInt8) : Writes bs (text bs).toList := by
  rw [text, String.toList_ofList]
  exact writes_encode bs

/-- Bytes are written in one way only. -/
theorem Writes.eq_encode {bs : List UInt8} {cs : List Char} (h : Writes bs cs) : cs = encode bs := by
  induction h with
  | nil => rfl
  | @one a p q w x hw hx hbits =>
      have hq := lt_of_alphabet hx
      have hfirst : a.toNat / 4 = p := by omega
      have hlast : a.toNat % 4 * 16 = q := by omega
      rw [encode, hfirst, hlast, eq_charOf_of_alphabet hw, eq_charOf_of_alphabet hx]
  | @two a b p q r w x y hw hx hy hbits =>
      have hb := b.toNat_lt
      have hq := lt_of_alphabet hx
      have hr := lt_of_alphabet hy
      have hfirst : a.toNat / 4 = p := by omega
      have hsecond : a.toNat % 4 * 16 + b.toNat / 16 = q := by omega
      have hlast : b.toNat % 16 * 4 = r := by omega
      rw [encode, hfirst, hsecond, hlast, eq_charOf_of_alphabet hw, eq_charOf_of_alphabet hx,
        eq_charOf_of_alphabet hy]
  | @three a b c p q r s w x y z bs cs hw hx hy hz hbits _ ih =>
      have hb := b.toNat_lt
      have hc := c.toNat_lt
      have hq := lt_of_alphabet hx
      have hr := lt_of_alphabet hy
      have hs := lt_of_alphabet hz
      have hfirst : a.toNat / 4 = p := by omega
      have hsecond : a.toNat % 4 * 16 + b.toNat / 16 = q := by omega
      have hthird : b.toNat % 16 * 4 + c.toNat / 64 = r := by omega
      have hlast : c.toNat % 64 = s := by omega
      rw [encode, hfirst, hsecond, hthird, hlast, ih, eq_charOf_of_alphabet hw,
        eq_charOf_of_alphabet hx, eq_charOf_of_alphabet hy, eq_charOf_of_alphabet hz]

/-- What is written holds no white space. -/
theorem Writes.not_blank {bs : List UInt8} {cs : List Char} (h : Writes bs cs) :
    ∀ c ∈ cs, Text.isBlank c = false := by
  have hchar {n : Nat} {c : Char} (hc : alphabet[n]? = some c) : Text.isBlank c = false := by
    have hall : alphabet.all fun c => !Text.isBlank c := by decide
    simpa using List.all_eq_true.mp hall c (List.mem_of_getElem? hc)
  have hpad : Text.isBlank '=' = false := by decide
  induction h with
  | nil => simp
  | one hw hx => simp [hchar hw, hchar hx, hpad]
  | two hw hx hy => simp [hchar hw, hchar hx, hchar hy, hpad]
  | three hw hx hy hz _ _ ih => simpa [hchar hw, hchar hx, hchar hy, hchar hz] using ih

/-! ### What is read -/

/-- A character has a value if it is in the alphabet in this place. -/
theorem alphabet_of_valueOf? {c : Char} {n : Nat} (h : valueOf? c = some n) :
    alphabet[n]? = some c := by
  suffices hchar : n < 64 ∧ c = charOf n by rw [hchar.2, alphabet_charOf n hchar.1]
  have hofNat {m : Nat} (hm : m = c.toNat) : c = Char.ofNat m := by rw [hm, Char.ofNat_toNat]
  -- Both functions go by ranges of codes, so the ranges are told as such.
  have hle {a b : Char} : a ≤ b ↔ a.toNat ≤ b.toNat := Iff.rfl
  unfold valueOf? at h
  simp only [hle] at h
  change (if 65 ≤ c.toNat ∧ c.toNat ≤ 90 then some (c.toNat - 65)
    else if 97 ≤ c.toNat ∧ c.toNat ≤ 122 then some (c.toNat - 97 + 26)
    else if 48 ≤ c.toNat ∧ c.toNat ≤ 57 then some (c.toNat - 48 + 52)
    else if c = '+' then some 62 else if c = '/' then some 63 else none) = some n at h
  unfold charOf
  change n < 64 ∧ c = if n < 26 then Char.ofNat (65 + n) else if n < 52 then Char.ofNat (97 + (n - 26))
    else if n < 62 then Char.ofNat (48 + (n - 52)) else if n = 62 then '+' else '/'
  split at h
  · cases h
    rw [if_pos (by omega)]
    exact ⟨by omega, hofNat (by omega)⟩
  split at h
  · cases h
    rw [if_neg (by omega), if_pos (by omega)]
    exact ⟨by omega, hofNat (by omega)⟩
  split at h
  · cases h
    rw [if_neg (by omega), if_neg (by omega), if_pos (by omega)]
    exact ⟨by omega, hofNat (by omega)⟩
  split at h
  · cases h
    exact ⟨by decide, by assumption⟩
  split at h
  · cases h
    exact ⟨by decide, by assumption⟩
  · cases h

/-- What is read is what the characters write. -/
theorem writes_of_decode? {cs : List Char} {bs : List UInt8} (h : decode? cs = some bs) :
    Writes bs cs := by
  have hbyte {n : Nat} (hn : n < 256) : (UInt8.ofNat n).toNat = n := UInt8.toNat_ofNat_of_lt' hn
  have hlt {c : Char} {n : Nat} (hc : valueOf? c = some n) : n < 64 :=
    lt_of_alphabet (alphabet_of_valueOf? hc)
  fun_induction decode? cs generalizing bs with
  | case1 =>
      cases h
      exact .nil
  | case2 _ _ p q hx hw hzero =>
      cases h
      have hp := hlt hw
      have hq := hlt hx
      refine .one (alphabet_of_valueOf? hw) (alphabet_of_valueOf? hx) ?_
      rw [hbyte (by omega)]
      omega
  | case5 _ _ _ _ p q r hy hx hw hzero =>
      cases h
      have hp := hlt hw
      have hq := hlt hx
      have hr := hlt hy
      refine .two (alphabet_of_valueOf? hw) (alphabet_of_valueOf? hx) (alphabet_of_valueOf? hy) ?_
      rw [hbyte (by omega), hbyte (by omega)]
      omega
  | case8 _ _ _ _ rest _ _ p q r s hz hy hx hw ih =>
      obtain ⟨more, hmore, rfl⟩ := Option.map_eq_some_iff.mp h
      have hp := hlt hw
      have hq := hlt hx
      have hr := hlt hy
      have hs := hlt hz
      refine .three (alphabet_of_valueOf? hw) (alphabet_of_valueOf? hx) (alphabet_of_valueOf? hy)
        (alphabet_of_valueOf? hz) ?_ (ih hmore)
      rw [hbyte (by omega), hbyte (by omega), hbyte (by omega)]
      omega
  | case3 | case4 | case6 | case7 | case9 | case10 => cases h

/-- The characters of a text write bytes exactly if these are read from it. -/
theorem ofText?_eq_some {s : String} {bs : List UInt8} : ofText? s = some bs ↔ Writes bs s.toList := by
  constructor
  · exact writes_of_decode?
  · intro h
    rw [ofText?, h.eq_encode]
    exact decode?_encode bs

/-- **Reading gives back the bytes that were written.** -/
theorem ofText?_text (bs : List UInt8) : ofText? (text bs) = some bs :=
  ofText?_eq_some.mpr (writes_text bs)

end DailyBars.Base64
