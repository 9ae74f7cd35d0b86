import DailyBars.Text.Bytes

/-!
# Form encoding

Names and values in the query of an address, as `application/x-www-form-urlencoded`: letters,
digits and `*-._` stand for themselves, a space is a plus sign, and every other byte of the UTF-8
form is written as a percent sign and two hexadecimal digits.
-/

namespace DailyBars.Text

/-- Whether a character stands for itself in a form. -/
def isFormPlain (c : Char) : Bool :=
  ('A' ≤ c && c ≤ 'Z') || ('a' ≤ c && c ≤ 'z') || ('0' ≤ c && c ≤ '9') || "*-._".toList.contains c

/-- A byte as a percent sign and two capital hexadecimal digits. -/
def percentByte (b : UInt8) : List Char :=
  let digit (n : Nat) : Char :=
    if n < 10 then Char.ofNat ('0'.toNat + n) else Char.ofNat ('A'.toNat + n - 10)
  ['%', digit (b.toNat / 16), digit (b.toNat % 16)]

/-- A character in a form. -/
def formChar (c : Char) : List Char :=
  if isFormPlain c then [c]
  else if c = ' ' then ['+']
  else (bytes (String.singleton c)).flatMap percentByte

/-- A name or a value in a form. -/
def formText (s : String) : String := String.ofList (s.toList.flatMap formChar)

/-- A list of names and values as a form. -/
def formEncoded (pairs : List (String × String)) : String :=
  "&".intercalate (pairs.map fun (name, value) => formText name ++ "=" ++ formText value)

end DailyBars.Text
