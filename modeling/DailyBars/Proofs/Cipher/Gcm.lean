import DailyBars.Cipher.Gcm
import Mathlib.Data.List.GetD

/-!
# Opening what was sealed

The key stream is added to a message byte by byte, and adding it twice gives the message back. A tag
has sixteen bytes whatever it is made of, so opening finds it at the end of the box. Both need that
an encrypted block has sixteen bytes, and this that the last round key has.
-/

namespace DailyBars

theorem Sha256.length_bigEndian (width n : Nat) : (Sha256.bigEndian width n).length = width := by
  induction width with
  | zero => rfl
  | succ width ih => rw [Sha256.bigEndian, List.length_cons, ih]

/-! ### The sizes of the block cipher -/

namespace Aes256

@[simp] theorem length_xor (a b : List UInt8) : (xor a b).length = min a.length b.length := by
  simp [xor]

/-- Adding the same bytes twice changes nothing. -/
theorem xor_xor_of_length_le {text stream : List UInt8} (h : text.length ≤ stream.length) :
    xor (xor text stream) stream = text := by
  induction text generalizing stream with
  | nil => rfl
  | cons a text ih =>
      cases stream with
      | nil => cases h
      | cons b stream =>
          have htail : xor (xor text stream) stream = text := ih (Nat.le_of_succ_le_succ h)
          change ((a ^^^ b) ^^^ b) :: xor (xor text stream) stream = a :: text
          rw [htail, UInt8.xor_assoc, UInt8.xor_self, UInt8.xor_zero]

/-- Eight words of four bytes. -/
structure Schedule (words : List (List UInt8)) : Prop where
  word : ∀ w ∈ words, w.length = 4
  count : words.length = 8

theorem length_chain (carry : List UInt8) (words : List (List UInt8)) :
    (chain carry words).length = words.length := by
  induction words generalizing carry with
  | nil => rfl
  | cons w words ih => simp [chain, ih]

theorem length_of_mem_chain {carry : List UInt8} {words : List (List UInt8)}
    (hcarry : carry.length = 4) (hwords : ∀ w ∈ words, w.length = 4) :
    ∀ w ∈ chain carry words, w.length = 4 := by
  induction words generalizing carry with
  | nil => simp [chain]
  | cons v words ih =>
      have hv : (xor v carry).length = 4 := by
        rw [length_xor, hwords v List.mem_cons_self, hcarry]
        rfl
      intro w hw
      rcases List.mem_cons.mp hw with rfl | hw
      · exact hv
      · exact ih hv (fun x hx => hwords x (List.mem_cons_of_mem v hx)) w hw

theorem Schedule.getD {words : List (List UInt8)} (h : Schedule words) {i : Nat} (hi : i < 8) :
    (words.getD i []).length = 4 := by
  rw [List.getD_eq_getElem _ _ (by rw [h.count]; exact hi)]
  exact h.word _ (List.getElem_mem _)

theorem Schedule.nextWords {words : List (List UInt8)} (h : Schedule words) (constant : UInt8) :
    Schedule (nextWords constant words) := by
  unfold Aes256.nextWords
  dsimp only
  generalize hfirst : chain _ (words.take 4) = first
  have hlast := h.getD (show 7 < 8 by decide)
  have hstirred : (xor (((words.getD 7 []).drop 1 ++ (words.getD 7 []).take 1).map substitute)
      [constant, 0, 0, 0]).length = 4 := by
    simp only [length_xor, List.length_map, List.length_append, List.length_drop, List.length_take,
      List.length_cons, List.length_nil, hlast]
    rfl
  have hword : ∀ w ∈ first, w.length = 4 := by
    rw [← hfirst]
    exact length_of_mem_chain hstirred fun w hw => h.word w (List.mem_of_mem_take hw)
  have hcount : first.length = 4 := by
    rw [← hfirst, length_chain, List.length_take, h.count]
    rfl
  have hthird : ((first.getD 3 []).map substitute).length = 4 := by
    rw [List.length_map, List.getD_eq_getElem _ _ (by rw [hcount]; decide)]
    exact hword _ (List.getElem_mem _)
  refine ⟨?_, ?_⟩
  · intro w hw
    rcases List.mem_append.mp hw with hw | hw
    · exact hword w hw
    · exact length_of_mem_chain hthird (fun x hx => h.word x (List.mem_of_mem_drop hx)) w hw
  · rw [List.length_append, length_chain, hcount, List.length_drop, h.count]

theorem Schedule.expand {words : List (List UInt8)} (h : Schedule words) (constants : List UInt8) :
    (∀ w ∈ Aes256.expand words constants, w.length = 4) ∧
      (Aes256.expand words constants).length = 8 * (constants.length + 1) := by
  induction constants generalizing words with
  | nil => exact ⟨h.word, h.count⟩
  | cons c constants ih =>
      obtain ⟨hword, hcount⟩ := ih (h.nextWords c)
      refine ⟨?_, ?_⟩
      · intro w hw
        rcases List.mem_append.mp hw with hw | hw
        · exact h.word w hw
        · exact hword w hw
      · change (words ++ _).length = _
        rw [List.length_append, hcount, h.count, List.length_cons]
        omega

theorem length_fours {α : Type} : (l : List α) → (fours l).length = l.length / 4
  | [] | [_] | [_, _] | [_, _, _] => by simp [fours]
  | a :: b :: c :: d :: rest => by
    rw [fours, List.length_cons, length_fours rest]
    simp only [List.length_cons]
    omega

/-- Each piece has four elements, which are elements of the list. -/
theorem of_mem_fours {α : Type} {piece : List α} :
    {l : List α} → piece ∈ fours l → piece.length = 4 ∧ ∀ x ∈ piece, x ∈ l
  | [], h | [_], h | [_, _], h | [_, _, _], h => by cases h
  | a :: b :: c :: d :: rest, h => by
    rcases List.mem_cons.mp h with rfl | h
    · refine ⟨rfl, fun x hx => ?_⟩
      have hsplit : a :: b :: c :: d :: rest = [a, b, c, d] ++ rest := rfl
      rw [hsplit]
      exact List.mem_append_left rest hx
    · obtain ⟨hlength, hmem⟩ := of_mem_fours h
      exact ⟨hlength, fun x hx => by simp [hmem x hx]⟩

theorem schedule_fours {key : List UInt8} (h : key.length = 32) : Schedule (fours key) :=
  ⟨fun _ hw => (of_mem_fours hw).1, by rw [length_fours, h]⟩

/-- A key of 32 bytes has fifteen round keys of sixteen bytes. -/
theorem roundKeys_lengths {key : List UInt8} (h : key.length = 32) :
    (roundKeys key).length = 15 ∧ ∀ k ∈ roundKeys key, k.length = 16 := by
  obtain ⟨hword, hcount⟩ := (schedule_fours h).expand roundConstants
  refine ⟨?_, ?_⟩
  · rw [roundKeys, List.length_take, List.length_map, length_fours, hcount]
    rfl
  · intro k hk
    obtain ⟨piece, hpiece, rfl⟩ := List.mem_map.mp (List.mem_of_mem_take hk)
    obtain ⟨hfour, hmem⟩ := of_mem_fours hpiece
    have hall : ∀ w ∈ piece, w.length = 4 := fun w hw => hword w (hmem w hw)
    rw [List.length_flatten, List.map_congr_left hall, List.map_const', List.sum_replicate_nat, hfour]

/-- An encrypted block has sixteen bytes. -/
theorem length_encryptBlock {key : List UInt8} (h : key.length = 32) (block : List UInt8) :
    (encryptBlock (roundKeys key) block).length = 16 := by
  obtain ⟨hcount, hkey⟩ := roundKeys_lengths h
  cases hkeys : roundKeys key with
  | nil =>
      rw [hkeys] at hcount
      cases hcount
  | cons first rest =>
      rw [hkeys] at hcount hkey
      have hrest : rest ≠ [] := by
        rintro rfl
        cases hcount
      have hlast : (rest.getLastD []).length = 16 := by
        rw [List.getLastD_eq_getLast?, List.getLast?_eq_some_getLast hrest]
        exact hkey _ (List.mem_cons_of_mem first (List.getLast_mem hrest))
      change (xor (shiftRows _) (rest.getLastD [])).length = 16
      rw [length_xor, hlast]
      rfl

end Aes256

/-! ### Sealing and opening -/

namespace Gcm

open Aes256

variable {key : List UInt8}

theorem length_keyStream (h : key.length = 32) (nonce : List UInt8) (count n : Nat) :
    (keyStream (roundKeys key) nonce count n).length = 16 * n := by
  induction n generalizing count with
  | zero => rfl
  | succ n ih =>
      rw [keyStream, List.length_append, length_encryptBlock h, ih]
      omega

theorem length_applyStream (h : key.length = 32) (nonce text : List UInt8) :
    (applyStream (roundKeys key) nonce text).length = text.length := by
  rw [applyStream, length_xor, length_keyStream h, blocksFor]
  omega

/-- Decrypting is encrypting again. -/
theorem applyStream_applyStream (h : key.length = 32) (nonce text : List UInt8) :
    applyStream (roundKeys key) nonce (applyStream (roundKeys key) nonce text) = text := by
  have hlength := length_applyStream h nonce text
  unfold applyStream at hlength ⊢
  rw [hlength]
  refine xor_xor_of_length_le ?_
  rw [length_keyStream h, blocksFor]
  omega

theorem length_tag (h : key.length = 32) (nonce cipher : List UInt8) :
    (tag (roundKeys key) nonce cipher).length = tagSize := by
  unfold tag
  dsimp only
  rw [length_xor, length_encryptBlock h, Sha256.length_bigEndian]
  rfl

theorem length_sealed (h : key.length = 32) (nonce message : List UInt8) :
    (Gcm.sealed key nonce message).length = message.length + tagSize := by
  unfold Gcm.sealed
  dsimp only
  rw [List.length_append, length_tag h, length_applyStream h]

/-- **Opening gives back the message that was sealed.** -/
theorem opened?_sealed (h : key.length = 32) (nonce message : List UInt8) :
    opened? key nonce (Gcm.sealed key nonce message) = some message := by
  have hlength := length_sealed h nonce message
  have hcipher := length_applyStream h nonce message
  unfold opened?
  rw [if_neg (by omega), hlength, Nat.add_sub_cancel]
  have hsealed : Gcm.sealed key nonce message = applyStream (roundKeys key) nonce message ++
      tag (roundKeys key) nonce (applyStream (roundKeys key) nonce message) := rfl
  dsimp only
  rw [hsealed, List.take_left' hcipher, List.drop_left' hcipher, if_pos rfl,
    applyStream_applyStream h]

/-- A box is opened only if it is what its message is sealed to. -/
theorem opened?_eq_some (h : key.length = 32) {nonce box message : List UInt8} :
    opened? key nonce box = some message ↔ box = Gcm.sealed key nonce message := by
  constructor
  · intro hopened
    unfold opened? at hopened
    split at hopened
    · cases hopened
    · dsimp only at hopened
      obtain ⟨htag, hmessage⟩ := Option.ite_none_right_eq_some.mp hopened
      have hcipher := applyStream_applyStream h nonce (box.take (box.length - tagSize))
      cases hmessage
      unfold Gcm.sealed
      dsimp only
      rw [hcipher, ← htag, List.take_append_drop]
  · rintro rfl
    exact opened?_sealed h nonce message

end Gcm

end DailyBars
