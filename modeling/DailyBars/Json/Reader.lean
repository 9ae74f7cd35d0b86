import DailyBars.Json.Value
import DailyBars.Text.Bytes

/-!
# Reading JSON texts

A text is cut into tokens, and the tokens are put together by a machine with a stack of open lists
and objects, one step per token. The grammar is checked here and nothing else: a number too large
or a text with half of a surrogate pair stays in the tree, for the reader of records to judge.
-/

namespace DailyBars.Json

/-- A token of a JSON text. -/
inductive Token where
  | leaf (v : Json)
  | openList | closeList | openObject | closeObject | comma | colon

/-- A unit of a text: a character, or half of a surrogate pair written as an escape. -/
inductive TextUnit where
  | char (c : Char)
  | half (n : Nat)
  deriving DecidableEq, Repr

/-- Puts the halves of surrogate pairs together; `none` if one is left alone. -/
def joinUnits : List TextUnit → Option (List Char)
  | [] => some []
  | .char c :: us => (joinUnits us).map (c :: ·)
  | .half h :: .half l :: us =>
    if 0xD800 ≤ h ∧ h < 0xDC00 ∧ 0xDC00 ≤ l ∧ l < 0xE000 then
      (joinUnits us).map (Char.ofNat (0x10000 + (h - 0xD800) * 0x400 + (l - 0xDC00)) :: ·)
    else none
  | .half _ :: _ => none

/-- The value of a hexadecimal digit. -/
def hexValue? (c : Char) : Option Nat :=
  if '0' ≤ c ∧ c ≤ '9' then some (c.toNat - '0'.toNat)
  else if 'a' ≤ c ∧ c ≤ 'f' then some (c.toNat - 'a'.toNat + 10)
  else if 'A' ≤ c ∧ c ≤ 'F' then some (c.toNat - 'A'.toNat + 10)
  else none

/-- The unit written as four hexadecimal digits. -/
def unitOfHex? (a b c d : Char) : Option TextUnit :=
  match hexValue? a, hexValue? b, hexValue? c, hexValue? d with
  | some a, some b, some c, some d =>
    let n := ((a * 16 + b) * 16 + c) * 16 + d
    some (if 0xD800 ≤ n ∧ n < 0xE000 then .half n else .char (Char.ofNat n))
  | _, _, _, _ => none

/-- The character that a one-letter escape stands for. -/
def simpleEscape? : Char → Option Char
  | '"' => some '"'
  | '\\' => some '\\'
  | '/' => some '/'
  | 'b' => some '\x08'
  | 'f' => some '\x0c'
  | 'n' => some '\n'
  | 'r' => some '\r'
  | 't' => some '\t'
  | _ => none

/-- The units of a text up to its closing quote, and what follows the quote. -/
def readUnits : List Char → Option (List TextUnit × List Char)
  | [] => none
  | '"' :: rest => some ([], rest)
  | '\\' :: 'u' :: a :: b :: c :: d :: rest =>
    match unitOfHex? a b c d, readUnits rest with
    | some u, some (us, rest) => some (u :: us, rest)
    | _, _ => none
  | '\\' :: e :: rest =>
    match simpleEscape? e, readUnits rest with
    | some c, some (us, rest) => some (.char c :: us, rest)
    | _, _ => none
  | c :: rest =>
    if c.toNat < 0x20 || c = '\\' then none
    else (readUnits rest).map fun (us, rest) => (.char c :: us, rest)

/-! ## Numbers -/

/-- The greatest significand that is collected digit by digit. -/
def maxSignificand : Nat := UInt64.size - 1

/-- Collects digits while the significand fits 64 bits: the significand, how many digits were taken
and how many were left. -/
def collectDigits (s taken : Nat) : List Char → Nat × Nat × Nat
  | [] => (s, taken, 0)
  | d :: ds =>
    let s' := s * 10 + Text.digitValue d
    if s' ≤ maxSignificand then collectDigits s' (taken + 1) ds else (s, taken, ds.length + 1)

/-- Divides by `10 ^ 308` as long as the exponent is below that. -/
def scaleTiny (f : Binary64) (e : Nat) : Nat → Binary64
  | 0 => f
  | fuel + 1 =>
    let pow (k : Nat) : Binary64 := (Binary64.ofNat (Nat.pow 10 k)).getD Binary64.zero
    if e ≤ 308 then (f.div (pow e)).getD Binary64.zero
    else if f.significand = 0 then f
    else scaleTiny ((f.div (pow 308)).getD Binary64.zero) (e - 308) fuel

/-- The double `significand * 10 ^ exponent`, made with one rounding for the significand and one
for each product or quotient with a power of ten. -/
def floatOfParts (negative : Bool) (significand : Nat) (exponent : Int) : JsonNumber :=
  let f := (Binary64.ofNat significand).getD Binary64.zero
  let result : Option Binary64 :=
    if 0 ≤ exponent then
      if exponent ≤ 308 then (Binary64.ofNat (Nat.pow 10 exponent.natAbs)).bind f.mul
      else if significand = 0 then some f
      else none
    else some (scaleTiny f exponent.natAbs 8)
  match result with
  | none => .outOfRange
  | some x => .float { x with negative := negative }

/-- The number with the given integer digits, digits after the point and exponent. Digits that do
not fit the significand only move its exponent; those after the point are dropped. -/
def numberOfParts (negative : Bool) (whole fraction : List Char) (exponent : Option Int) :
    JsonNumber :=
  let (s, _, left) := collectDigits 0 0 whole
  if fraction.isEmpty && exponent.isNone && left = 0 then
    if negative then
      if 0 < s && s ≤ UInt64.size / 2 then .int (-(s : Int))
      else floatOfParts true s 0
    else .int s
  else
    let (s, taken, _) := collectDigits s 0 fraction
    let start : Int := (left : Int) - taken
    match exponent with
    | none => floatOfParts negative s start
    | some e =>
      if 2147483647 < e.natAbs then
        if s ≠ 0 && 0 ≤ e then .outOfRange else .float ⟨negative, 0, 0⟩
      else floatOfParts negative s (start + e)

/-- The exponent of a number, when the text goes on with one: `some none` if it does not. -/
def readExponent (cs : List Char) : Option (Option Int × List Char) :=
  match cs with
  | e :: rest =>
    if e = 'e' || e = 'E' then
      let (negative, rest) := Text.readSign rest
      match Text.spanDigits rest with
      | ([], _) => none
      | (ds, rest) =>
        let n : Int := Text.valueOfDigits 0 ds
        some (some (if negative then -n else n), rest)
    else some (none, cs)
  | [] => some (none, [])

/-- The digits after a point, when the text goes on with one: none if it does not. -/
def readFraction (cs : List Char) : Option (List Char × List Char) :=
  match cs with
  | '.' :: rest =>
    match Text.spanDigits rest with
    | ([], _) => none
    | r => some r
  | _ => some ([], cs)

/-- A number at the head of a text, and what follows it. -/
def readNumber (cs : List Char) : Option (JsonNumber × List Char) :=
  let (negative, cs) := match cs with
    | '-' :: rest => (true, rest)
    | _ => (false, cs)
  match Text.spanDigits cs with
  | ([], _) => none
  | (whole, rest) =>
    if whole.head? = some '0' && 1 < whole.length then none
    else
      match readFraction rest with
      | none => none
      | some (fraction, rest) =>
        match readExponent rest with
        | none => none
        | some (exponent, rest) => some (numberOfParts negative whole fraction exponent, rest)

/-! ## Tokens -/

/-- Whether a character may stand between tokens. -/
def isGap (c : Char) : Bool := c = ' ' || c = '\n' || c = '\t' || c = '\r'

/-- The token at the head of a text without gaps in front, and what follows it. -/
def readToken : List Char → Option (Token × List Char)
  | '[' :: rest => some (.openList, rest)
  | ']' :: rest => some (.closeList, rest)
  | '\x7b' :: rest => some (.openObject, rest)
  | '\x7d' :: rest => some (.closeObject, rest)
  | ',' :: rest => some (.comma, rest)
  | ':' :: rest => some (.colon, rest)
  | '"' :: rest =>
    (readUnits rest).map fun (us, rest) => (.leaf (.text ((joinUnits us).map String.ofList)), rest)
  | 'n' :: 'u' :: 'l' :: 'l' :: rest => some (.leaf .null, rest)
  | 't' :: 'r' :: 'u' :: 'e' :: rest => some (.leaf (.bool true), rest)
  | 'f' :: 'a' :: 'l' :: 's' :: 'e' :: rest => some (.leaf (.bool false), rest)
  | cs => (readNumber cs).map fun (n, rest) => (.leaf (.number n), rest)

/-! ### A token is never empty -/

theorem length_of_readUnits {cs rest : List Char} {us : List TextUnit}
    (h : readUnits cs = some (us, rest)) : rest.length < cs.length := by
  fun_induction readUnits cs generalizing us with
  | case1 => simp at h
  | case2 tail =>
    obtain ⟨_, rfl⟩ := Prod.mk.inj (Option.some.inj h)
    simp
  | case3 a b c d tail u vs left hvs _ ih =>
    obtain ⟨_, rfl⟩ := Prod.mk.inj (Option.some.inj h)
    have := ih hvs
    simp only [List.length_cons]
    omega
  | case4 => simp at h
  | case5 e tail _ c vs left hvs _ ih =>
    obtain ⟨_, rfl⟩ := Prod.mk.inj (Option.some.inj h)
    have := ih hvs
    simp only [List.length_cons]
    omega
  | case6 => simp at h
  | case7 => simp at h
  | case8 c tail _ _ _ _ ih =>
    obtain ⟨⟨vs, left⟩, hvs, he⟩ := Option.map_eq_some_iff.1 h
    obtain ⟨_, rfl⟩ := Prod.mk.inj he
    have := ih hvs
    simp only [List.length_cons]
    omega

theorem length_of_readFraction {cs ds rest : List Char} (h : readFraction cs = some (ds, rest)) :
    rest.length ≤ cs.length := by
  unfold readFraction at h
  split at h
  · split at h
    · simp at h
    · have := Text.length_of_spanDigits (Option.some.inj h)
      simp only [List.length_cons]
      omega
  · obtain ⟨_, rfl⟩ := Prod.mk.inj (Option.some.inj h)
    exact Nat.le_refl _

theorem length_of_readExponent {cs rest : List Char} {e : Option Int}
    (h : readExponent cs = some (e, rest)) : rest.length ≤ cs.length := by
  unfold readExponent at h
  split at h
  · next c tail =>
    split at h
    · simp only at h
      split at h
      · simp at h
      · next hspan =>
        obtain ⟨_, rfl⟩ := Prod.mk.inj (Option.some.inj h)
        have := Text.length_of_spanDigits hspan
        have := Text.length_of_readSign tail
        simp only [List.length_cons]
        omega
    · obtain ⟨_, rfl⟩ := Prod.mk.inj (Option.some.inj h)
      exact Nat.le_refl _
  · obtain ⟨_, rfl⟩ := Prod.mk.inj (Option.some.inj h)
    exact Nat.le_refl _

theorem length_of_readNumber {cs rest : List Char} {n : JsonNumber}
    (h : readNumber cs = some (n, rest)) : rest.length < cs.length := by
  unfold readNumber at h
  split at h
  next negative body hbody =>
  have hlen : body.length ≤ cs.length := by
    split at hbody <;> obtain ⟨_, rfl⟩ := Prod.mk.inj hbody <;> simp
  split at h
  · simp at h
  · next whole left hne hspan =>
    have hw := Text.length_of_spanDigits hspan
    have : whole.length ≠ 0 := fun h0 => hne (List.eq_nil_of_length_eq_zero h0)
    split at h
    · simp at h
    · split at h
      · simp at h
      · next hf =>
        have := length_of_readFraction hf
        split at h
        · simp at h
        · next he =>
          have := length_of_readExponent he
          obtain ⟨_, rfl⟩ := Prod.mk.inj (Option.some.inj h)
          omega

theorem length_of_readToken {cs rest : List Char} {t : Token}
    (h : readToken cs = some (t, rest)) : rest.length < cs.length := by
  unfold readToken at h
  split at h
  case h_7 tail =>
    obtain ⟨⟨us, left⟩, hus, he⟩ := Option.map_eq_some_iff.1 h
    obtain ⟨_, rfl⟩ := Prod.mk.inj he
    have := length_of_readUnits hus
    simp only [List.length_cons]
    omega
  case h_11 =>
    obtain ⟨⟨n, left⟩, hn, he⟩ := Option.map_eq_some_iff.1 h
    obtain ⟨_, rfl⟩ := Prod.mk.inj he
    exact length_of_readNumber hn
  all_goals
    obtain ⟨_, rfl⟩ := Prod.mk.inj (Option.some.inj h)
    simp only [List.length_cons]
    omega

/-- The tokens of a text. -/
def tokens (cs : List Char) : Option (List Token) :=
  match cs with
  | [] => some []
  | c :: rest =>
    if isGap c then tokens rest
    else
      match _h : readToken (c :: rest) with
      | none => none
      | some (t, left) => (tokens left).map (t :: ·)
termination_by cs.length
decreasing_by
  · simp only [List.length_cons]
    omega
  · exact length_of_readToken _h

/-! ## Trees -/

/-- A list or an object that is still open: what it holds so far, last first, and for an object the
name of the field being read. -/
inductive Frame where
  | list (items : List Json)
  | object (fields : List (Option String × Json)) (name : Option String)

/-- What may come next. -/
inductive Expected where
  /-- A value. -/
  | value
  /-- A value, or the end of a list just opened. -/
  | firstItem
  /-- A name, or the end of an object just opened. -/
  | firstName
  /-- A name. -/
  | name
  /-- The colon after a name. -/
  | colon
  /-- A comma or the end of the innermost list or object. -/
  | separator
  /-- Nothing: the value is complete. -/
  | finish (v : Json)

/-- The state between two tokens. -/
abbrev Assembly := List Frame × Expected

/-- Puts a complete value into the innermost open list or object. -/
def give (v : Json) : List Frame → Assembly
  | [] => ([], .finish v)
  | .list items :: fs => (.list (v :: items) :: fs, .separator)
  | .object fields k :: fs => (.object ((k, v) :: fields) k :: fs, .separator)

/-- One step of the assembly. -/
def assemble : Assembly → Token → Option Assembly
  | (fs, .value), .leaf v => some (give v fs)
  | (fs, .firstItem), .leaf v => some (give v fs)
  | (fs, .value), .openList => some (.list [] :: fs, .firstItem)
  | (fs, .firstItem), .openList => some (.list [] :: fs, .firstItem)
  | (fs, .value), .openObject => some (.object [] none :: fs, .firstName)
  | (fs, .firstItem), .openObject => some (.object [] none :: fs, .firstName)
  | (.list [] :: fs, .firstItem), .closeList => some (give (.list []) fs)
  | (.object fields _ :: fs, .firstName), .leaf (.text k) =>
    some (.object fields k :: fs, .colon)
  | (.object fields _ :: fs, .name), .leaf (.text k) => some (.object fields k :: fs, .colon)
  | (.object [] _ :: fs, .firstName), .closeObject => some (give (.object []) fs)
  | (fs, .colon), .colon => some (fs, .value)
  | (.list items :: fs, .separator), .comma => some (.list items :: fs, .value)
  | (.object fields k :: fs, .separator), .comma => some (.object fields k :: fs, .name)
  | (.list items :: fs, .separator), .closeList => some (give (.list items.reverse) fs)
  | (.object fields _ :: fs, .separator), .closeObject =>
    some (give (.object fields.reverse) fs)
  | _, _ => none

/-- The value that a list of tokens writes. -/
def ofTokens? (ts : List Token) : Option Json :=
  match ts.foldlM assemble ([], .value) with
  | some (_, .finish v) => some v
  | _ => none

/-- The value that a text writes, if the text follows the grammar. -/
def ofText? (s : String) : Option Json := (tokens s.toList).bind ofTokens?

end DailyBars.Json
