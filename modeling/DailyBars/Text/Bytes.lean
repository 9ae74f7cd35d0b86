/-!
# Bytes of a text

The UTF-8 form of a text as a list of bytes, and back.
-/

namespace DailyBars.Text

/-- The UTF-8 bytes of a text. -/
def bytes (s : String) : List UInt8 := s.toUTF8.data.toList

/-- The text whose UTF-8 form is given, when the bytes are well formed. -/
def ofBytes? (bs : List UInt8) : Option String := String.fromUTF8? ⟨bs.toArray⟩

theorem ofBytes?_bytes (s : String) : ofBytes? (bytes s) = some s := by
  have h : (⟨(s.toUTF8.data.toList).toArray⟩ : ByteArray) = s.toByteArray := by
    simp [String.toUTF8]
  simp only [ofBytes?, bytes, h, String.fromUTF8?, dif_pos s.isValidUTF8]
  rfl

/-- Bytes are those of a text only if it is the text that is found. -/
theorem ofBytes?_eq_some {bs : List UInt8} {s : String} : ofBytes? bs = some s ↔ bs = bytes s := by
  constructor
  · intro h
    unfold ofBytes? String.fromUTF8? at h
    split at h
    · cases h
      simp [bytes, String.fromUTF8]
    · cases h
  · rintro rfl
    exact ofBytes?_bytes s

theorem length_bytes (s : String) : (bytes s).length = s.utf8ByteSize := Array.length_toList

/-- The lower-case hexadecimal digit of a value below sixteen. -/
def hexDigit (n : Nat) : Char :=
  if n < 10 then Char.ofNat ('0'.toNat + n) else Char.ofNat ('a'.toNat + n - 10)

/-- Two hexadecimal digits for each byte. -/
def hexOf (bs : List UInt8) : List Char :=
  bs.flatMap fun b => [hexDigit (b.toNat / 16), hexDigit (b.toNat % 16)]

end DailyBars.Text
