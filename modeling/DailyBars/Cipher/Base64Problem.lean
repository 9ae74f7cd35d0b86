import DailyBars.Cipher.Base64
import DailyBars.Text.Bytes
import DailyBars.Text.Digits

/-!
# Why a text is not Base64

A text that the reader of Base64 refuses has a first problem, told by the offset of a byte. The text
is taken in groups of four; only the last group, which may be a shorter one, may hold padding.
-/

namespace DailyBars

/-- The first problem of a text that is not Base64. -/
inductive Base64Problem where
  /-- A byte that is not in the alphabet, or padding where none may stand. -/
  | symbol (byte : UInt8) (offset : Nat)
  /-- The text ends after the first character of a group. -/
  | length (count : Nat)
  /-- The last character before the padding has bits that stand for nothing. -/
  | lastSymbol (byte : UInt8) (offset : Nat)
  /-- The last group is not filled up with padding. -/
  | padding
  deriving DecidableEq, Repr

namespace Base64Problem

/-- The byte of padding. -/
def pad : UInt8 := 61

/-- The value of a byte of the alphabet. -/
def valueOf? (b : UInt8) : Option Nat :=
  if b < 128 then Base64.valueOf? (Char.ofNat b.toNat) else none

/-- The first byte of a group that is not in the alphabet. -/
def inGroup? (offset : Nat) : List UInt8 → Option Base64Problem
  | [] => none
  | b :: bs => if (valueOf? b).isNone then some (.symbol b offset) else inGroup? (offset + 1) bs

/-- The first byte of the last group that may not stand where it does. Padding may begin after two
characters, and nothing may follow it. -/
def inLastGroup? (start : Nat) (group : List UInt8) : Option Base64Problem :=
  let head := group.takeWhile (· ≠ pad)
  let tail := group.dropWhile (· ≠ pad)
  match inGroup? start head with
  | some p => some p
  | none =>
    if !tail.isEmpty && (head.length < 2 || tail.any (· ≠ pad)) then
      some (.symbol pad (start + head.length))
    else none

/-- The problem of the length of the last group, or of what its last character says. -/
def ofLastGroup (start : Nat) (group : List UInt8) : Base64Problem :=
  let head := group.takeWhile (· ≠ pad)
  if head.length < 2 then .length (start + head.length)
  else if group.length ≠ 4 then .padding
  else .lastSymbol (head.getLastD 0) (start + head.length - 1)

/-- The problem of the bytes of a text that is not Base64. A last byte that stands alone and is not
in the alphabet, such as the end of a line, is told first. -/
def ofBytes (bs : List UInt8) : Base64Problem :=
  let start := (bs.length - 1) / 4 * 4
  let last := bs.drop start
  match last with
  | [b] =>
    if b ≠ pad ∧ (valueOf? b).isNone then .symbol b start
    else
      match (inGroup? 0 (bs.take start)).orElse fun _ => inLastGroup? start last with
      | some p => p
      | none => ofLastGroup start last
  | last =>
    match (inGroup? 0 (bs.take start)).orElse fun _ => inLastGroup? start last with
    | some p => p
    | none => ofLastGroup start last

/-- The problem of a text that is not Base64. -/
def ofText (s : String) : Base64Problem := ofBytes (Text.bytes s)

/-- The wording of a problem. -/
def message : Base64Problem → String
  | symbol b i =>
    "Invalid symbol " ++ Text.decimalText b.toNat ++ ", offset " ++ Text.decimalText i ++ "."
  | length n => "Invalid input length: " ++ Text.decimalText n
  | lastSymbol b i =>
    "Invalid last symbol " ++ Text.decimalText b.toNat ++ ", offset " ++ Text.decimalText i ++ "."
  | padding => "Invalid padding"

/-- What a diagnostic shows of a problem. -/
def shown : Base64Problem → String
  | symbol b i => "InvalidByte(" ++ Text.decimalText i ++ ", " ++ Text.decimalText b.toNat ++ ")"
  | length n => "InvalidLength(" ++ Text.decimalText n ++ ")"
  | lastSymbol b i =>
    "InvalidLastSymbol(" ++ Text.decimalText i ++ ", " ++ Text.decimalText b.toNat ++ ")"
  | padding => "InvalidPadding"

end Base64Problem

end DailyBars
