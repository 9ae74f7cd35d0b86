/-!
# Digits

Natural numbers written in base ten, and the value that a run of digits denotes; and lengths of time as
a diagnostic shows them.
-/

namespace DailyBars.Text

/-- Whether a character is one of the ten ASCII digits. -/
def isDigit (c : Char) : Bool := '0' ≤ c && c ≤ '9'

/-- The value of an ASCII digit. -/
def digitValue (c : Char) : Nat := c.toNat - '0'.toNat

/-- The digit of a value below ten. -/
def digitChar (d : Nat) : Char := Char.ofNat ('0'.toNat + d)

/-- The value of a run of digits, continuing the value `acc` of the digits before it. -/
def valueOfDigits (acc : Nat) : List Char → Nat
  | [] => acc
  | c :: cs => valueOfDigits (acc * 10 + digitValue c) cs

/-- The decimal digits of a number, most significant first and without leading zeros. -/
def digitsOf (n : Nat) : List Char :=
  if n < 10 then [digitChar n] else digitsOf (n / 10) ++ [digitChar (n % 10)]
termination_by n
decreasing_by omega

/-- The digits of a number, with zeros in front up to `width` characters. -/
def paddedDigits (width n : Nat) : List Char :=
  let ds := digitsOf n
  List.replicate (width - ds.length) '0' ++ ds

/-- A number as text, with zeros in front up to `width` characters. -/
def padded (width n : Nat) : String := String.ofList (paddedDigits width n)

/-- A number as text. -/
def decimalText (n : Nat) : String := String.ofList (digitsOf n)

/-- An integer as text, negative ones with a minus sign. -/
def integerText (n : Int) : String :=
  if n < 0 then "-" ++ decimalText n.natAbs else decimalText n.natAbs

/-- The leading digits of a text and what follows them. -/
def spanDigits (cs : List Char) : List Char × List Char :=
  (cs.takeWhile isDigit, cs.dropWhile isDigit)

/-- Whether a text begins with a minus sign, and what follows the sign, if there is one. -/
def readSign : List Char → Bool × List Char
  | '-' :: cs => (true, cs)
  | '+' :: cs => (false, cs)
  | cs => (false, cs)

/-- The number written in a text that holds digits only, and at least one of them. -/
def readNat? (cs : List Char) : Option Nat :=
  if cs.isEmpty || !cs.all isDigit then none else some (valueOfDigits 0 cs)

/-- The number written in a whole text, with a plus sign or without. -/
def readUnsigned? : List Char → Option Nat
  | '+' :: ds => readNat? ds
  | ds => readNat? ds

/-- The integer written in a whole text, with a sign or without. -/
def readInt? (cs : List Char) : Option Int :=
  let (negative, ds) := readSign cs
  (readNat? ds).map fun n => if negative then -(n : Int) else n

theorem length_of_spanDigits {cs ds rest : List Char} (h : spanDigits cs = (ds, rest)) :
    ds.length + rest.length = cs.length := by
  obtain ⟨rfl, rfl⟩ := Prod.mk.inj h
  rw [← List.length_append, List.takeWhile_append_dropWhile]

theorem length_of_readSign (cs : List Char) : (readSign cs).2.length ≤ cs.length := by
  unfold readSign
  split <;> simp

/-! ### Lengths of time

In the greatest of the units seconds, milliseconds, microseconds and nanoseconds of which there is at
least one, with as many digits after the point as are needed. -/

/-- The digits after the point of `rest` parts of a unit that has `10 ^ width` of them, without
zeros at the end. -/
def fractionOf (width rest : Nat) : List Char :=
  ((paddedDigits width rest).reverse.dropWhile (· = '0')).reverse

/-- A number of nanoseconds in a unit of `10 ^ width` nanoseconds. -/
def inUnit (width nanos : Nat) : String :=
  let rest := nanos % Nat.pow 10 width
  decimalText (nanos / Nat.pow 10 width) ++
    (if rest = 0 then "" else "." ++ String.ofList (fractionOf width rest))

/-- A number of nanoseconds in its greatest unit. -/
def duration (nanos : Nat) : String :=
  if 1000000000 ≤ nanos then inUnit 9 nanos ++ "s"
  else if 1000000 ≤ nanos then inUnit 6 nanos ++ "ms"
  else if 1000 ≤ nanos then inUnit 3 nanos ++ "µs"
  else inUnit 0 nanos ++ "ns"

end DailyBars.Text
