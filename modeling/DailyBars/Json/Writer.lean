import DailyBars.Json.Value
import DailyBars.Text.Bytes

/-!
# Writing JSON texts

Values on one line without blanks. Quotes, backslashes, control characters and the line separators
of Unicode are escaped.
-/

namespace DailyBars.Json

/-- A character inside a text. -/
def writtenChar (c : Char) : List Char :=
  let n := c.toNat
  if c = '"' then ['\\', '"']
  else if c = '\\' then ['\\', '\\']
  else if n < 0x20 || n = 0x7F || n = 0x85 || n = 0x2028 || n = 0x2029 then
    ['\\', 'u', Text.hexDigit (n / 4096), Text.hexDigit (n / 256 % 16), Text.hexDigit (n / 16 % 16),
      Text.hexDigit (n % 16)]
  else [c]

/-- A text between quotes. -/
def writtenText (s : String) : String :=
  String.ofList ('"' :: s.toList.flatMap writtenChar ++ ['"'])

/-- A number. -/
def writtenNumber : JsonNumber → String
  | .int n => Text.integerText n
  | .float x => x.text
  | .outOfRange => "null"

mutual

/-- A value as text. -/
def write : Json → String
  | .null => "null"
  | .bool b => if b then "true" else "false"
  | .number n => writtenNumber n
  | .text s => writtenText (s.getD "")
  | .list items => "[" ++ ",".intercalate (writeItems items) ++ "]"
  | .object fields => "\x7b" ++ ",".intercalate (writeFields fields) ++ "\x7d"

/-- The items of a list as texts. -/
def writeItems : List Json → List String
  | [] => []
  | v :: vs => write v :: writeItems vs

/-- The fields of an object as texts. -/
def writeFields : List (Option String × Json) → List String
  | [] => []
  | (k, v) :: fs => (writtenText (k.getD "") ++ ":" ++ write v) :: writeFields fs

end

end DailyBars.Json
