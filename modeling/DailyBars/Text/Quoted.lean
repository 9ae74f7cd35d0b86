import DailyBars.Text.Printable
import DailyBars.Text.Bytes

/-!
# Quoted text

A text between double quotes, for diagnostics: quotes, backslashes and line ends are escaped, and
a character that would not show is written by its code point.
-/

namespace DailyBars.Text

/-- The hexadecimal digits of a number, without leading zeros. -/
def hexDigitsOf (n : Nat) : List Char :=
  if n < 16 then [hexDigit n] else hexDigitsOf (n / 16) ++ [hexDigit (n % 16)]
termination_by n
decreasing_by omega

/-- A character inside a quoted text. -/
def quotedChar (c : Char) : List Char :=
  if c = '\x00' then ['\\', '0']
  else if c = '\t' then ['\\', 't']
  else if c = '\r' then ['\\', 'r']
  else if c = '\n' then ['\\', 'n']
  else if c = '"' then ['\\', '"']
  else if c = '\\' then ['\\', '\\']
  else if isPrintable c then [c]
  else ['\\', 'u', '\x7b'] ++ hexDigitsOf c.toNat ++ ['\x7d']

/-- A text between double quotes, with what would be unreadable escaped. -/
def quoted (s : String) : String :=
  String.ofList ('"' :: s.toList.flatMap quotedChar ++ ['"'])

/-- The diagnostic form of an optional text. -/
def quotedOption : Option String → String
  | none => "None"
  | some s => "Some(" ++ quoted s ++ ")"

end DailyBars.Text
