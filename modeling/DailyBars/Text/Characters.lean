/-!
# Blanks and letter case

The characters that count as white space at the ends of a text: the `White_Space` property of
Unicode, which is wider than the ASCII blanks and narrower than "prints nothing". And two ways of
ignoring case: within ASCII, and by the full lower-case mapping of Unicode against a word of ASCII
letters.
-/

namespace DailyBars.Text

/-! ### White space -/

/-- The code points with the `White_Space` property. -/
def isBlankCode (n : Nat) : Bool :=
  (9 ≤ n && n ≤ 13) || n == 0x20 || n == 0x85 || n == 0xA0 || n == 0x1680 ||
  (0x2000 ≤ n && n ≤ 0x200A) || n == 0x2028 || n == 0x2029 || n == 0x202F || n == 0x205F ||
  n == 0x3000

/-- Whether a character is white space. -/
def isBlank (c : Char) : Bool := isBlankCode c.toNat

/-- The characters from the first that is not blank. -/
def dropBlanks (cs : List Char) : List Char := cs.dropWhile isBlank

/-- The characters between the first and the last that are not blank. -/
def trimChars (cs : List Char) : List Char :=
  (dropBlanks (dropBlanks cs).reverse).reverse

/-- A text without the white space at its two ends. -/
def trim (s : String) : String := String.ofList (trimChars s.toList)

/-- Whether a text holds nothing but white space. -/
def isBlankText (s : String) : Bool := s.toList.all isBlank

@[simp] theorem dropBlanks_nil : dropBlanks [] = [] := rfl

/-! ### Letter case -/

/-- Whether two texts are equal when ASCII capitals are read as small letters. -/
def equalsIgnoringCase (s t : String) : Bool :=
  s.toList.map Char.toLower == t.toList.map Char.toLower

/-- The lower case of a character, as far as it can meet an ASCII letter: besides the ASCII
capitals only the KELVIN SIGN has a small letter of ASCII as its lower case. -/
def lowered (c : Char) : Char :=
  if c = '\u212A' then 'k' else c.toLower

/-- Whether the lower-case mapping of `s` is `word`, a word of small ASCII letters.

No other character outside ASCII is mapped into ASCII alone, so it is enough to compare character
by character. -/
def lowercaseIs (word s : String) : Bool :=
  s.toList.map lowered == word.toList

end DailyBars.Text
