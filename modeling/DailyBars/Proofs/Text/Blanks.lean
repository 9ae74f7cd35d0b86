import DailyBars.Proofs.Text.Digits
import DailyBars.Text.Characters
import Mathlib.Data.List.TakeWhile

/-!
# White space around a text

What is trimmed off a text is the white space at its two ends, as far as the first character from there
that is none (`IsAround.trim_eq_of_ends`); white space within stays. Every text is white space around
what is left of it (`exists_eq_trimChars`).
-/

namespace DailyBars.Text

/-- A digit is no white space. -/
theorem isBlank_of_isDigit {c : Char} (h : isDigit c) : isBlank c = false := by
  obtain ⟨hlow, hhigh⟩ := isDigit_iff.mp h
  simp only [isBlank, isBlankCode, Bool.or_eq_false_iff, Bool.and_eq_false_iff, beq_eq_false_iff_ne,
    decide_eq_false_iff_not]
  omega

/-- Nothing is dropped in front of a character that is no white space. -/
theorem dropBlanks_eq_self {rest : List Char} (hrest : ∀ c ∈ rest.head?, isBlank c = false) :
    dropBlanks rest = rest := by
  cases rest with
  | nil => rfl
  | cons c rest => rw [dropBlanks, List.dropWhile_cons_of_neg (by simp [hrest c rfl])]

/-- White space is dropped up to the first character that is none. -/
theorem dropBlanks_append {front rest : List Char} (hfront : ∀ c ∈ front, isBlank c)
    (hrest : ∀ c ∈ rest.head?, isBlank c = false) : dropBlanks (front ++ rest) = rest := by
  rw [dropBlanks, List.dropWhile_append_of_pos hfront]
  exact dropBlanks_eq_self hrest

/-- Nothing is dropped in front of a digit. -/
theorem dropBlanks_digits {ds rest : List Char} (hne : ds ≠ []) (h : ∀ c ∈ ds, isDigit c) :
    dropBlanks (ds ++ rest) = ds ++ rest := by
  cases ds with
  | nil => exact absurd rfl hne
  | cons c ds =>
      have hc := isBlank_of_isDigit (h c List.mem_cons_self)
      rw [dropBlanks, List.cons_append, List.dropWhile_cons_of_neg (by simpa using hc)]

/-- Around the characters between the first and the last that are not blank there is white space. -/
theorem exists_eq_trimChars (cs : List Char) : ∃ front back : List Char,
    (∀ c ∈ front, isBlank c) ∧ (∀ c ∈ back, isBlank c) ∧
      cs = front ++ (trimChars cs ++ back) := by
  let rest := dropBlanks cs
  refine ⟨cs.takeWhile isBlank, (rest.reverse.takeWhile isBlank).reverse, ?_, ?_, ?_⟩
  · exact List.all_eq_true.mp List.all_takeWhile
  · intro c hc
    exact List.all_eq_true.mp List.all_takeWhile c (List.mem_reverse.mp hc)
  · rw [trimChars, dropBlanks, ← List.reverse_append, List.takeWhile_append_dropWhile,
      List.reverse_reverse]
    exact List.takeWhile_append_dropWhile.symm

/-- The text holds these characters, with white space around them. -/
def IsAround (core : List Char) (s : String) : Prop :=
  ∃ front back : List Char, (∀ c ∈ front, isBlank c) ∧ (∀ c ∈ back, isBlank c) ∧
    s.toList = front ++ (core ++ back)

/-- A text is around its own characters. -/
theorem isAround_toList (s : String) : IsAround s.toList s := ⟨[], [], by simp, by simp, by simp⟩

/-- The white space around characters that neither begin nor end with it is what is trimmed. -/
theorem IsAround.trim_eq_of_ends {core : List Char} {s : String} (h : IsAround core s)
    (hfirst : ∀ c ∈ core.head?, isBlank c = false) (hlast : ∀ c ∈ core.getLast?, isBlank c = false) :
    trim s = String.ofList core := by
  obtain ⟨front, back, hfront, hback, hs⟩ := h
  have hback' : ∀ c ∈ back.reverse, isBlank c := fun c hc => hback c (List.mem_reverse.mp hc)
  suffices htrim : trimChars s.toList = core by rw [trim, htrim]
  rw [hs, trimChars]
  cases core with
  | nil =>
      have hall : ∀ c ∈ front ++ ([] ++ back), isBlank c := by
        intro c hc
        exact (List.mem_append.mp hc).elim (hfront c) (hback c)
      have hnone : dropBlanks ((front ++ ([] ++ back)) ++ []) = [] :=
        dropBlanks_append hall (by simp)
      rw [List.append_nil] at hnone
      rw [hnone]
      rfl
  | cons c core =>
      have hfirst' : ∀ d ∈ (c :: core ++ back).head?, isBlank d = false := hfirst
      rw [dropBlanks_append hfront hfirst', List.reverse_append,
        dropBlanks_append hback' (by rwa [List.head?_reverse]), List.reverse_reverse]

/-- The white space around other characters is what is trimmed. -/
theorem IsAround.trim_eq {core : List Char} {s : String} (h : IsAround core s)
    (hcore : ∀ c ∈ core, isBlank c = false) : trim s = String.ofList core :=
  h.trim_eq_of_ends (fun c hc => hcore c (List.mem_of_mem_head? hc))
    fun c hc => hcore c (List.mem_of_mem_getLast? hc)

end DailyBars.Text
