import DailyBars.Json.Decode
import DailyBars.Proofs.Text.Blanks

/-!
# Cutting a text into tokens, step by step

The tokens of a text are defined by recursion on what is left of it. `Json.tokensWithin` cuts a text
in at most so many steps, and a text has no more tokens than characters. White space makes no token:
it is passed over, or it is of a kind that may not stand between tokens and ends the reading.
-/

namespace DailyBars

namespace Json

/-- The tokens of a text, if it is at its end after a number of steps. -/
def tokensWithin : Nat → List Char → Option (List Token)
  | _, [] => some []
  | 0, _ :: _ => none
  | n + 1, c :: rest =>
    if isGap c then tokensWithin n rest
    else
      match readToken (c :: rest) with
      | none => none
      | some (t, left) => (tokensWithin n left).map (t :: ·)

/-- There are enough steps for a text if there are as many as characters. -/
theorem tokens_eq_tokensWithin {n : Nat} {cs : List Char} (h : cs.length ≤ n) :
    tokens cs = tokensWithin n cs := by
  induction n generalizing cs with
  | zero =>
      obtain rfl := List.eq_nil_of_length_eq_zero (Nat.le_zero.mp h)
      rw [tokens]
      rfl
  | succ n ih =>
      cases cs with
      | nil =>
          rw [tokens]
          rfl
      | cons c rest =>
          have hrest : rest.length ≤ n := Nat.le_of_succ_le_succ h
          rw [tokens, tokensWithin]
          split
          · exact ih hrest
          · split
            · rename_i hnone
              rw [hnone]
            · rename_i t left htoken
              -- A token takes a character at least.
              have hleft := length_of_readToken htoken
              rw [List.length_cons] at hleft
              rw [htoken, ih (by omega)]

/-- The value that a list of characters writes. -/
def ofChars? (cs : List Char) : Option Json := (tokensWithin cs.length cs).bind ofTokens?

theorem ofText?_ofList (cs : List Char) : ofText? (String.ofList cs) = ofChars? cs := by
  rw [ofText?, String.toList_ofList, tokens_eq_tokensWithin (Nat.le_refl _)]
  rfl

/-! ### White space -/

/-- White space that may not stand between tokens begins none. -/
theorem readToken_blank {c : Char} {rest : List Char} (hblank : Text.isBlank c) :
    readToken (c :: rest) = none := by
  have hne {d : Char} (hd : Text.isBlank d = false) : c ≠ d := by
    rintro rfl
    rw [hblank] at hd
    cases hd
  have hnumber : readNumber (c :: rest) = none := by
    have hdigit : Text.isDigit c = false :=
      Bool.eq_false_iff.mpr fun h => by simp [Text.isBlank_of_isDigit h] at hblank
    have hspan : Text.spanDigits (c :: rest) = ([], c :: rest) := by
      rw [Text.spanDigits, List.takeWhile_cons_of_neg, List.dropWhile_cons_of_neg] <;>
        simp [hdigit]
    unfold readNumber
    split
    rename_i hcs
    split at hcs
    · rename_i heq
      exact absurd (List.cons.inj heq).1 (hne (by decide))
    · obtain ⟨-, rfl⟩ := Prod.mk.inj hcs
      rw [hspan]
  unfold readToken
  split
  case h_11 => rw [hnumber]; rfl
  all_goals
    rename_i heq
    exact absurd (List.cons.inj heq).1 (hne (by decide))

/-- White space is between tokens or ends the reading. -/
theorem tokens_blank_append {bl : List Char} (hblank : ∀ c ∈ bl, Text.isBlank c) (cs : List Char) :
    tokens (bl ++ cs) = none ∨ tokens (bl ++ cs) = tokens cs := by
  induction bl with
  | nil => exact .inr rfl
  | cons c rest ih =>
      rw [List.cons_append, tokens]
      split
      · exact ih fun d hd => hblank d (List.mem_cons_of_mem _ hd)
      · left
        split
        · rfl
        · rename_i htoken
          rw [readToken_blank (hblank c List.mem_cons_self)] at htoken
          cases htoken

theorem tokens_blank {bl : List Char} (hblank : ∀ c ∈ bl, Text.isBlank c) :
    tokens bl = none ∨ tokens bl = some [] := by
  have hnil : tokens [] = some [] := by rw [tokens]
  have h := tokens_blank_append hblank []
  rwa [List.append_nil, hnil] at h

/-- A text with nothing but a null in it, or nothing at all, writes a null if it writes a value. -/
theorem ofText?_of_trim {s : String} (h : Text.trim s = "" ∨ Text.trim s = "null") :
    ofText? s = none ∨ ofText? s = some .null := by
  obtain ⟨front, back, hfront, hback, hs⟩ := Text.exists_eq_trimChars s.toList
  have htokens : tokens s.toList = none ∨ tokens s.toList = some [] ∨
      tokens s.toList = some [.leaf .null] := by
    rcases h with h | h
    · have htrim : Text.trimChars s.toList = [] := String.ofList_injective h
      rw [htrim, List.nil_append] at hs
      rw [hs]
      have hall : ∀ c ∈ front ++ back, Text.isBlank c := by
        intro c hc
        exact (List.mem_append.mp hc).elim (hfront c) (hback c)
      exact (tokens_blank hall).imp_right .inl
    · have htrim : Text.trimChars s.toList = ['n', 'u', 'l', 'l'] := String.ofList_injective h
      have hnull : tokens (['n', 'u', 'l', 'l'] ++ back) =
          (tokens back).map (.leaf .null :: ·) := by
        rw [List.cons_append, tokens]
        rfl
      rw [hs, htrim]
      rcases tokens_blank_append hfront (['n', 'u', 'l', 'l'] ++ back) with hnone | hsame
      · exact .inl hnone
      · rw [hsame, hnull]
        rcases tokens_blank hback with hrest | hrest <;> simp [hrest]
  unfold ofText?
  rcases htokens with htokens | htokens | htokens <;> rw [htokens]
  · exact .inl rfl
  · exact .inl rfl
  · exact .inr rfl

end Json

namespace Decoder

/-- Reads a list of characters. -/
def ofChars {α : Type} (d : Decoder α) (cs : List Char) : Except DecodeError α :=
  match Json.ofChars? cs with
  | none => .error .malformed
  | some v =>
    match d .text v with
    | .ok a => .ok a
    | .error e => .error (if v.isReadable Json.maxDepth then e else .malformed)

theorem ofText_ofList {α : Type} (d : Decoder α) (cs : List Char) :
    ofText d (String.ofList cs) = ofChars d cs := by
  rw [ofText, Json.ofText?_ofList]
  rfl

end Decoder

end DailyBars
