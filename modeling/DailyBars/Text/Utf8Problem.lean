import DailyBars.Text.Digits

/-!
# Where bytes stop being a text

The first place at which bytes are no longer the UTF-8 form of a text: there either stands a
sequence that begins no character, or the bytes end within a character.
-/

namespace DailyBars

/-- The first place at which bytes are not well formed. -/
structure Utf8Problem where
  /-- The offset of the character that is not there. -/
  offset : Nat
  /-- The number of bytes at that offset that belong to no character; none if the bytes end within
  a character. -/
  length : Option Nat
  deriving DecidableEq, Repr

namespace Utf8Problem

/-- The least and the greatest byte of each place after a first byte; none if no character begins
so. The shorter form of a character that has one, and the halves of a surrogate pair, are shut out
by the byte after the first. -/
def placesAfter (first : UInt8) : Option (List (UInt8 × UInt8)) :=
  let any : UInt8 × UInt8 := (0x80, 0xBF)
  if first < 0x80 then some []
  else if first < 0xC2 then none
  else if first < 0xE0 then some [any]
  else if first = 0xE0 then some [(0xA0, 0xBF), any]
  else if first = 0xED then some [(0x80, 0x9F), any]
  else if first < 0xF0 then some [any, any]
  else if first = 0xF0 then some [(0x90, 0xBF), any, any]
  else if first < 0xF4 then some [any, any, any]
  else if first = 0xF4 then some [(0x80, 0x8F), any, any]
  else none

/-- The first problem of what follows: `seen` bytes of the character at `start` were read, and the
places `due` are still to come. -/
def from? (start seen : Nat) : List (UInt8 × UInt8) → List UInt8 → Option Utf8Problem
  | [], [] => none
  | _ :: _, [] => some ⟨start, none⟩
  | [], b :: bs =>
    match placesAfter b with
    | none => some ⟨start + seen, some 1⟩
    | some due => from? (start + seen) 1 due bs
  | (least, greatest) :: due, b :: bs =>
    if least ≤ b ∧ b ≤ greatest then from? start (seen + 1) due bs else some ⟨start, some seen⟩

/-- The first problem of some bytes. -/
def find? (bs : List UInt8) : Option Utf8Problem := from? 0 0 [] bs

/-- The wording of a problem. -/
def message (p : Utf8Problem) : String :=
  match p.length with
  | some n =>
    "invalid utf-8 sequence of " ++ Text.decimalText n ++ " bytes from index " ++
      Text.decimalText p.offset
  | none => "incomplete utf-8 byte sequence from index " ++ Text.decimalText p.offset

end Utf8Problem

end DailyBars
