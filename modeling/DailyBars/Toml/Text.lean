import DailyBars.Json.Reader

/-!
# Texts in TOML

Four ways of quoting: between quotes with escapes, between apostrophes without, and both over
several lines between three of them. A line ends with a line feed, perhaps after a carriage return,
and in a text counts as a line feed.
-/

namespace DailyBars.Toml

/-- A reader takes what it reads from the beginning of a text and gives the rest of it. -/
abbrev Reader (α : Type) := List Char → Option (α × List Char)

/-- Whether a character may stand in a line. -/
def isPlain (c : Char) : Bool := c = '\t' || (0x20 ≤ c.toNat && c.toNat ≠ 0x7F)

/-- Whether a character is a blank within a line. -/
def isGap (c : Char) : Bool := c = ' ' || c = '\t'

/-- What follows the blanks. -/
def skipGaps (cs : List Char) : List Char := cs.dropWhile isGap

/-- What follows the end of a line. -/
def lineEnd? : List Char → Option (List Char)
  | '\n' :: rest => some rest
  | '\r' :: '\n' :: rest => some rest
  | _ => none

/-- The character that a one-letter escape stands for. -/
def escape? : Char → Option Char
  | '"' => some '"'
  | '\\' => some '\\'
  | 'b' => some '\x08'
  | 'f' => some '\x0c'
  | 'n' => some '\n'
  | 'r' => some '\r'
  | 't' => some '\t'
  | _ => none

/-- The character with a number written in hexadecimal digits. -/
def charOfHex? (digits : List Char) : Option Char := do
  let values ← digits.mapM Json.hexValue?
  let n := values.foldl (fun n d => n * 16 + d) 0
  if n < 0xD800 ∨ (0xDFFF < n ∧ n < 0x110000) then some (Char.ofNat n) else none

/-- Puts a character before what was read. -/
def andThen (c : Char) : Option (List Char × List Char) → Option (List Char × List Char) :=
  Option.map fun (cs, rest) => (c :: cs, rest)

/-- A text in one line, up to its closing quote. -/
def readQuoted : Reader (List Char)
  | '"' :: rest => some ([], rest)
  | '\\' :: 'u' :: a :: b :: c :: d :: rest =>
    (charOfHex? [a, b, c, d]).bind fun x => andThen x (readQuoted rest)
  | '\\' :: 'U' :: a :: b :: c :: d :: e :: f :: g :: h :: rest =>
    (charOfHex? [a, b, c, d, e, f, g, h]).bind fun x => andThen x (readQuoted rest)
  | '\\' :: e :: rest => (escape? e).bind fun x => andThen x (readQuoted rest)
  | c :: rest => if isPlain c && c != '\\' then andThen c (readQuoted rest) else none
  | [] => none

/-- A text between apostrophes in one line, up to the closing one. -/
def readLiteral : Reader (List Char)
  | '\'' :: rest => some ([], rest)
  | c :: rest => if isPlain c then andThen c (readLiteral rest) else none
  | [] => none

/-- A text over several lines, up to its three closing quotes, of which two more may be part of it.
After a backslash at the end of a line, blanks and line ends are skipped. -/
def readLongQuoted (skipping : Bool) : Reader (List Char)
  | '"' :: '"' :: '"' :: '"' :: '"' :: rest => some (['"', '"'], rest)
  | '"' :: '"' :: '"' :: '"' :: rest => some (['"'], rest)
  | '"' :: '"' :: '"' :: rest => some ([], rest)
  | '\r' :: '\n' :: rest =>
    if skipping then readLongQuoted true rest else andThen '\n' (readLongQuoted false rest)
  | '\n' :: rest =>
    if skipping then readLongQuoted true rest else andThen '\n' (readLongQuoted false rest)
  | '\\' :: 'u' :: a :: b :: c :: d :: rest =>
    (charOfHex? [a, b, c, d]).bind fun x => andThen x (readLongQuoted false rest)
  | '\\' :: 'U' :: a :: b :: c :: d :: e :: f :: g :: h :: rest =>
    (charOfHex? [a, b, c, d, e, f, g, h]).bind fun x => andThen x (readLongQuoted false rest)
  | '\\' :: e :: rest =>
    match escape? e with
    | some x => andThen x (readLongQuoted false rest)
    | none =>
      if (lineEnd? (skipGaps (e :: rest))).isSome then
        readLongQuoted true (if e = '\r' then rest.tail else rest)
      else none
  | c :: rest =>
    if skipping && isGap c then readLongQuoted true rest
    else if isPlain c && c != '\\' then andThen c (readLongQuoted false rest)
    else none
  | [] => none
termination_by cs => cs.length
decreasing_by
  all_goals
    (simp only [List.length_cons]; try split) <;> (try simp only [List.length_tail]) <;> omega

/-- A text between apostrophes over several lines, up to the three closing ones. -/
def readLongLiteral : Reader (List Char)
  | '\'' :: '\'' :: '\'' :: '\'' :: '\'' :: rest => some (['\'', '\''], rest)
  | '\'' :: '\'' :: '\'' :: '\'' :: rest => some (['\''], rest)
  | '\'' :: '\'' :: '\'' :: rest => some ([], rest)
  | '\r' :: '\n' :: rest => andThen '\n' (readLongLiteral rest)
  | c :: rest => if isPlain c || c = '\n' then andThen c (readLongLiteral rest) else none
  | [] => none

/-- What follows the line end with which a text over several lines may begin. -/
def skipFirstLineEnd (cs : List Char) : List Char := (lineEnd? cs).getD cs

/-- A text in any of the four ways of quoting. -/
def readText : Reader String
  | '"' :: '"' :: '"' :: rest =>
    (readLongQuoted false (skipFirstLineEnd rest)).map fun (cs, rest) => (String.ofList cs, rest)
  | '\'' :: '\'' :: '\'' :: rest =>
    (readLongLiteral (skipFirstLineEnd rest)).map fun (cs, rest) => (String.ofList cs, rest)
  | '"' :: rest => (readQuoted rest).map fun (cs, rest) => (String.ofList cs, rest)
  | '\'' :: rest => (readLiteral rest).map fun (cs, rest) => (String.ofList cs, rest)
  | _ => none

end DailyBars.Toml
