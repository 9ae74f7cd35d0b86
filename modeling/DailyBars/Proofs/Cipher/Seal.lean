import DailyBars.Cipher.Secrets
import DailyBars.Proofs.Cipher.Base64
import DailyBars.Proofs.Cipher.Gcm
import DailyBars.Proofs.Text.Blanks

/-!
# Sealed tokens are opened again

Whatever nonce a text was sealed under, opening the box under the same key gives the text. Only an
empty text cannot be sealed. `TokenSeal.Opens` says of every text whatsoever what it is opened to: it is
cut into a nonce and the rest only if it writes more bytes than a nonce has, and the rest is opened only
if it is what some message is sealed to under that nonce.
-/

namespace DailyBars.TokenSeal

variable {k : TokenSeal} {nonce : Nonce} {plain box s : String} {bs body message : List UInt8}
  {r : Except CryptoError String}

/-! ### Boxes -/

/-- A text that writes bytes is opened by them. -/
theorem decrypt_of_writes (h : Base64.Writes bs box.toList) (hne : bs ≠ []) :
    k.decrypt box =
      if bs.length ≤ Gcm.nonceSize then .error (.ciphertextTooShort bs.length)
      else
        match Gcm.opened? k.key (bs.take Gcm.nonceSize) (bs.drop Gcm.nonceSize) with
        | none => .error (.decryptionFailed "aead::Error")
        | some plain =>
          match Text.ofBytes? plain with
          | none => .error (.utf8 (((Utf8Problem.find? plain).map (·.message)).getD ""))
          | some s => .ok s := by
  have hread : Base64.ofText? box = some bs := Base64.ofText?_eq_some.mpr h
  have hsome : box.isEmpty = false := by
    refine Bool.eq_false_iff.mpr fun hempty => hne ?_
    rw [String.isEmpty_iff.mp hempty] at hread
    exact (Option.some.inj hread).symm
  unfold decrypt
  rw [hsome, hread]
  rfl

/-- Behind a nonce the rest is opened. -/
theorem decrypt_of_nonce (h : Base64.Writes (nonce.bytes ++ body) box.toList) (hne : body ≠ []) :
    k.decrypt box =
      match Gcm.opened? k.key nonce.bytes body with
      | none => .error (.decryptionFailed "aead::Error")
      | some plain =>
        match Text.ofBytes? plain with
        | none => .error (.utf8 (((Utf8Problem.find? plain).map (·.message)).getD ""))
        | some s => .ok s := by
  have hlong : ¬ (nonce.bytes ++ body).length ≤ Gcm.nonceSize := by
    have hbody := List.length_pos_iff.mpr hne
    rw [List.length_append, nonce.bytes_length]
    omega
  rw [decrypt_of_writes h (by simp [hne]), if_neg hlong, List.take_left' nonce.bytes_length,
    List.drop_left' nonce.bytes_length]

/-- A message that was sealed is never without bytes. -/
theorem sealed_ne_nil (k : TokenSeal) (nonce : Nonce) (message : List UInt8) :
    Gcm.sealed k.key nonce.bytes message ≠ [] := by
  rw [← List.length_pos_iff, Gcm.length_sealed k.key_length, Gcm.tagSize]
  omega

/-- What a text was sealed to is opened to the text. -/
theorem decrypt_of_sealed
    (h : Base64.Writes (nonce.bytes ++ Gcm.sealed k.key nonce.bytes (Text.bytes s)) box.toList) :
    k.decrypt box = .ok s := by
  rw [decrypt_of_nonce h (sealed_ne_nil k nonce _), Gcm.opened?_sealed k.key_length]
  dsimp only
  rw [Text.ofBytes?_bytes]

theorem decrypt_of_encrypt (h : k.encrypt nonce plain = .ok box) : k.decrypt box = .ok plain := by
  unfold encrypt at h
  split at h
  · cases h
  · cases h
    exact decrypt_of_sealed (Base64.writes_text _)

/-- **What was sealed is opened again**: a text that is not empty can be sealed, and its box gives the
text. -/
theorem exists_encrypt (k : TokenSeal) (nonce : Nonce) (h : plain.isEmpty = false) :
    ∃ box, k.encrypt nonce plain = .ok box ∧ k.decrypt box = .ok plain := by
  have hsealed : k.encrypt nonce plain =
      .ok (Base64.text (nonce.bytes ++ Gcm.sealed k.key nonce.bytes (Text.bytes plain))) := by
    unfold encrypt
    rw [h]
    rfl
  exact ⟨_, hsealed, decrypt_of_encrypt hsealed⟩

/-! ### Keys -/

/-- A key is read from the text that writes it. -/
theorem ofText_text (k : TokenSeal) : ofText (Base64.text k.key) = .ok k := by
  have htrim : Text.trim (Base64.text k.key) = Base64.text k.key := by
    rw [(Text.isAround_toList _).trim_eq (Base64.writes_text k.key).not_blank, String.ofList_toList]
  unfold ofText
  rw [htrim, Base64.ofText?_text]
  dsimp only
  rw [dif_pos k.key_length]

/-! ### Sealing -/

/-- The text is sealed to the Base64 form of the nonce, of as many encrypted bytes as the text has in
UTF-8, and of a tag; and the box is opened to the text. -/
structure SealsTo (k : TokenSeal) (nonce : Nonce) (plain box : String) : Prop where
  encrypt : k.encrypt nonce plain = .ok box
  written : ∃ cipher tag, Base64.Writes (nonce.bytes ++ cipher ++ tag) box.toList ∧
    cipher = Gcm.applyStream (Aes256.roundKeys k.key) nonce.bytes (Text.bytes plain) ∧
    tag = Gcm.tag (Aes256.roundKeys k.key) nonce.bytes cipher ∧
    cipher.length = plain.utf8ByteSize ∧ tag.length = 16 ∧
    (nonce.bytes ++ cipher ++ tag).length = 28 + plain.utf8ByteSize
  decrypt : k.decrypt box = .ok plain

theorem exists_sealsTo (k : TokenSeal) (nonce : Nonce) (h : plain ≠ "") :
    ∃ box, k.SealsTo nonce plain box := by
  have hsome : plain.isEmpty = false := Bool.eq_false_iff.mpr fun hempty =>
    h (String.isEmpty_iff.mp hempty)
  obtain ⟨box, hsealed, hopened⟩ := k.exists_encrypt nonce hsome
  refine ⟨box, hsealed, ?_, hopened⟩
  unfold TokenSeal.encrypt at hsealed
  rw [hsome] at hsealed
  cases hsealed
  have hcipher := Gcm.length_applyStream k.key_length nonce.bytes (Text.bytes plain)
  have htag := Gcm.length_tag k.key_length nonce.bytes
    (Gcm.applyStream (Aes256.roundKeys k.key) nonce.bytes (Text.bytes plain))
  rw [Text.length_bytes] at hcipher
  refine ⟨_, _, ?_, rfl, rfl, hcipher, htag, ?_⟩
  · rw [List.append_assoc]
    exact Base64.writes_text _
  · rw [List.length_append, List.length_append, nonce.bytes_length, hcipher, htag, Gcm.nonceSize,
      Gcm.tagSize]
    omega

/-! ### Opening -/

/-- What becomes of a text that is to be opened. -/
inductive Opens (k : TokenSeal) : String → Except CryptoError String → Prop where
  | empty : Opens k "" (.error (.emptyInput "ciphertext"))
  | notBase64 {box : String} : (∀ bs, ¬ Base64.Writes bs box.toList) →
      Opens k box (.error (.base64 (Base64Problem.ofText box)))
  /-- There are no more bytes than a nonce has. -/
  | tooShort {box : String} {bs : List UInt8} : Base64.Writes bs box.toList → bs ≠ [] →
      bs.length ≤ 12 → Opens k box (.error (.ciphertextTooShort bs.length))
  /-- What follows the nonce is nothing that a message is sealed to. -/
  | refused {box : String} {nonce : Nonce} {body : List UInt8} :
      Base64.Writes (nonce.bytes ++ body) box.toList → body ≠ [] →
      (∀ message, body ≠ Gcm.sealed k.key nonce.bytes message) →
      Opens k box (.error (.decryptionFailed "aead::Error"))
  /-- The message is no text. -/
  | notText {box : String} {nonce : Nonce} {message : List UInt8} :
      Base64.Writes (nonce.bytes ++ Gcm.sealed k.key nonce.bytes message) box.toList →
      (∀ s, Text.bytes s ≠ message) →
      Opens k box (.error (.utf8 (((Utf8Problem.find? message).map (·.message)).getD "")))
  | opened {box : String} {nonce : Nonce} {s : String} :
      Base64.Writes (nonce.bytes ++ Gcm.sealed k.key nonce.bytes (Text.bytes s)) box.toList →
      Opens k box (.ok s)

/-- Bytes can be cut behind a nonce if there are more of them. -/
theorem exists_nonce (h : Gcm.nonceSize < bs.length) : ∃ nonce : Nonce, ∃ body,
    bs = nonce.bytes ++ body ∧ body ≠ [] := by
  refine ⟨⟨bs.take Gcm.nonceSize, ?_⟩, bs.drop Gcm.nonceSize, ?_, ?_⟩
  · rw [List.length_take]
    omega
  · exact (List.take_append_drop Gcm.nonceSize bs).symm
  · rw [Ne, List.drop_eq_nil_iff]
    omega

theorem Opens.decrypt_eq (h : k.Opens box r) : k.decrypt box = r := by
  cases h with
  | empty => rfl
  | notBase64 hnone =>
      have hread : Base64.ofText? box = none := by
        cases hbs : Base64.ofText? box with
        | none => rfl
        | some bs => exact absurd (Base64.ofText?_eq_some.mp hbs) (hnone bs)
      have hsome : box.isEmpty = false := by
        refine Bool.eq_false_iff.mpr fun hempty => hnone [] ?_
        rw [String.isEmpty_iff.mp hempty]
        exact .nil
      unfold decrypt
      rw [hsome, hread]
      rfl
  | @tooShort _ bs hwrites hne hshort =>
      rw [decrypt_of_writes hwrites hne, if_pos (show bs.length ≤ Gcm.nonceSize from hshort)]
  | @refused _ nonce body hwrites hne hnone =>
      have hopened : Gcm.opened? k.key nonce.bytes body = none := by
        cases hmessage : Gcm.opened? k.key nonce.bytes body with
        | none => rfl
        | some message =>
            exact absurd ((Gcm.opened?_eq_some k.key_length).mp hmessage) (hnone message)
      rw [decrypt_of_nonce hwrites hne, hopened]
  | @notText _ nonce message hwrites hnone =>
      have hread : Text.ofBytes? message = none := by
        cases hs : Text.ofBytes? message with
        | none => rfl
        | some s => exact absurd (Text.ofBytes?_eq_some.mp hs).symm (hnone s)
      rw [decrypt_of_nonce hwrites (sealed_ne_nil k nonce message),
        Gcm.opened?_sealed k.key_length]
      dsimp only
      rw [hread]
  | opened hwrites => exact decrypt_of_sealed hwrites

/-- Every text whatsoever is opened to something. -/
theorem exists_opens (k : TokenSeal) (box : String) : ∃ r, k.Opens box r := by
  by_cases hempty : box = ""
  · subst hempty
    exact ⟨_, .empty⟩
  by_cases hbase : ∃ bs, Base64.Writes bs box.toList
  · obtain ⟨bs, hwrites⟩ := hbase
    have hne : bs ≠ [] := by
      rintro rfl
      refine hempty (String.toList_inj.mp ?_)
      exact hwrites.eq_encode
    by_cases hshort : bs.length ≤ 12
    · exact ⟨_, .tooShort hwrites hne hshort⟩
    · obtain ⟨nonce, body, rfl, hbody⟩ := exists_nonce (Nat.not_le.mp hshort)
      by_cases hsealed : ∃ message, body = Gcm.sealed k.key nonce.bytes message
      · obtain ⟨message, rfl⟩ := hsealed
        by_cases htext : ∃ s, Text.bytes s = message
        · obtain ⟨s, rfl⟩ := htext
          exact ⟨_, .opened hwrites⟩
        · exact ⟨_, .notText hwrites (not_exists.mp htext)⟩
      · exact ⟨_, .refused hwrites hbody (not_exists.mp hsealed)⟩
  · exact ⟨_, .notBase64 (not_exists.mp hbase)⟩

theorem decrypt_eq_iff : k.decrypt box = r ↔ k.Opens box r := by
  constructor
  · rintro rfl
    obtain ⟨r, hopens⟩ := k.exists_opens box
    rw [hopens.decrypt_eq]
    exact hopens
  · exact Opens.decrypt_eq

/-- A text is too short exactly if it is the Base64 form of some bytes that are no more than those of
a nonce. -/
theorem decrypt_eq_tooShort {n : Nat} : k.decrypt box = .error (.ciphertextTooShort n) ↔
    box ≠ "" ∧ ∃ bs, Base64.Writes bs box.toList ∧ bs.length = n ∧ n ≤ 12 := by
  rw [decrypt_eq_iff]
  constructor
  · intro h
    cases h with
    | @tooShort _ bs hwrites hne hshort =>
        refine ⟨?_, bs, hwrites, rfl, hshort⟩
        rintro rfl
        cases hwrites
        exact hne rfl
  · rintro ⟨hbox, bs, hwrites, rfl, hshort⟩
    refine .tooShort hwrites ?_ hshort
    rintro rfl
    exact hbox (String.toList_inj.mp hwrites.eq_encode)

/-- **Sealing and opening.** Under every key, which is read from its Base64 form, and every nonce a
text that is not empty is sealed to the Base64 form of the nonce, as many bytes as the text has and a
tag of sixteen, and this is opened to the text. Any text is opened to what `Opens` says and to nothing
else, and it is too short exactly if it is not empty and writes at most twelve bytes. -/
theorem seals_and_opens (k : TokenSeal) :
    ofText (Base64.text k.key) = .ok k ∧
    (∀ nonce plain, plain ≠ "" → ∃ box, k.SealsTo nonce plain box) ∧
    (∀ box r, k.decrypt box = r ↔ k.Opens box r) ∧
    ∀ box n, k.decrypt box = .error (.ciphertextTooShort n) ↔
      box ≠ "" ∧ ∃ bs, Base64.Writes bs box.toList ∧ bs.length = n ∧ n ≤ 12 :=
  ⟨k.ofText_text, fun nonce _ h => k.exists_sealsTo nonce h, fun _ _ => decrypt_eq_iff,
    fun _ _ => decrypt_eq_tooShort⟩

/-- A key and a nonce of zeros seal a token. -/
theorem seals_and_opens_zeros : "token" ≠ "" ∧
    ∃ box, SealsTo ⟨List.replicate 32 0, rfl⟩ ⟨List.replicate 12 0, rfl⟩ "token" box := by
  have hne : "token" ≠ "" := by decide
  exact ⟨hne, (seals_and_opens ⟨List.replicate 32 0, rfl⟩).2.1 ⟨List.replicate 12 0, rfl⟩ "token" hne⟩

end DailyBars.TokenSeal
