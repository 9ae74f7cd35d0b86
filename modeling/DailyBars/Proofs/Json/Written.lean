import DailyBars.Json.Writer
import DailyBars.Proofs.Json.Grammar

/-!
# What is written is JSON

The writer writes in the grammar of JSON, so the reader takes its texts for the values that were
written. This holds of values whose texts are whole and whose numbers are integers of 64 bits: a double
is written in the fewest digits that denote it, and these are read with a rounding of their own.
-/

namespace DailyBars

namespace Json

/-! ### Texts -/

theorem hexValue?_hexDigit {d : Nat} (h : d < 16) : hexValue? (Text.hexDigit d) = some d := by
  have hall : ∀ e < 16, hexValue? (Text.hexDigit e) = some e := by decide
  exact hall d h

/-- A character is written as itself or as an escape of itself. -/
theorem writtenUnit_writtenChar (c : Char) : WrittenUnit (.char c) (writtenChar c) := by
  unfold writtenChar
  dsimp only
  split_ifs with hquote hslash hcode
  · subst hquote
    exact .escaped rfl
  · subst hslash
    exact .escaped rfl
  · refine .hex ?_
    simp only [Bool.or_eq_true, decide_eq_true_eq] at hcode
    have hsmall : c.toNat ≤ 0x2029 := by omega
    have hsum : ((c.toNat / 4096 * 16 + c.toNat / 256 % 16) * 16 + c.toNat / 16 % 16) * 16 +
        c.toNat % 16 = c.toNat := by omega
    unfold unitOfHex?
    rw [hexValue?_hexDigit (by omega), hexValue?_hexDigit (by omega), hexValue?_hexDigit (by omega),
      hexValue?_hexDigit (by omega)]
    dsimp only
    rw [hsum, if_neg (by omega), Char.ofNat_toNat]
  · simp only [Bool.or_eq_true, decide_eq_true_eq] at hcode
    exact .plain (by omega) hquote hslash

theorem writtenUnits_flatMap (cs : List Char) :
    WrittenUnits (cs.map .char) (cs.flatMap writtenChar) := by
  induction cs with
  | nil => exact .nil
  | cons c cs ih => exact .cons (writtenUnit_writtenChar c) ih

theorem ofUnits_map_char (cs : List Char) : ofUnits (cs.map .char) = some (String.ofList cs) := by
  have hjoin : joinUnits (cs.map .char) = some cs := by
    induction cs with
    | nil => rfl
    | cons c cs ih => rw [List.map_cons, joinUnits, ih]; rfl
  rw [ofUnits, hjoin]
  rfl

theorem toList_writtenText (s : String) :
    (writtenText s).toList = '"' :: (s.toList.flatMap writtenChar ++ ['"']) := by
  rw [writtenText, String.toList_ofList]
  rfl

/-! ### Integers -/

/-- The integers that are kept as such. -/
def IsWord (n : Int) : Prop := -(UInt64.size / 2 : Nat) ≤ n ∧ n < UInt64.size

theorem collectDigits_eq {s taken : Nat} {ds : List Char}
    (h : Text.valueOfDigits s ds ≤ maxSignificand) :
    collectDigits s taken ds = (Text.valueOfDigits s ds, taken + ds.length, 0) := by
  induction ds generalizing s taken with
  | nil => rfl
  | cons c ds ih =>
      have hle : s * 10 + Text.digitValue c ≤ maxSignificand :=
        Nat.le_trans (Text.le_valueOfDigits _ ds) h
      have hrest := @ih (s * 10 + Text.digitValue c) (taken + 1) h
      rw [collectDigits, if_pos hle, hrest, Text.valueOfDigits_cons, List.length_cons, Nat.add_assoc,
        Nat.add_comm 1]

/-- The digits of a number that fits are kept as an integer. -/
theorem numberOfParts_digitsOf {n : Nat} {negative : Bool} (h : n < UInt64.size)
    (hnegative : negative → 0 < n ∧ n ≤ UInt64.size / 2) :
    numberOfParts negative (Text.digitsOf n) [] none = .int (if negative then -(n : Int) else n) := by
  have hvalue := Text.valueOfDigits_digitsOf n
  have hcollect := @collectDigits_eq 0 0 (Text.digitsOf n) (by
    rw [hvalue]
    exact Nat.le_sub_one_of_lt h)
  rw [hvalue] at hcollect
  unfold numberOfParts
  rw [hcollect]
  cases negative with
  | false => rfl
  | true =>
      obtain ⟨hpos, hle⟩ := hnegative rfl
      simp [hpos, hle]

/-- An integer is written without zeros in front. -/
theorem writtenNumber_int {n : Int} (h : IsWord n) :
    WrittenNumber (.int n) (Text.integerText n).toList := by
  obtain ⟨hlow, hhigh⟩ := h
  have hdigits : Text.Digits (Text.digitsOf n.natAbs) :=
    ⟨Text.digitsOf_ne_nil _, Text.all_isDigit_digitsOf _⟩
  have hzero := Text.not_leading_zero n.natAbs
  have hsize : UInt64.size = 18446744073709551616 := rfl
  by_cases hneg : n < 0
  · have hparts := @numberOfParts_digitsOf n.natAbs true (by omega) (fun _ => by omega)
    have hvalue : (if (true : Bool) then -(n.natAbs : Int) else n.natAbs) = n := by
      simp only [if_true]
      omega
    have hwritten := @WrittenNumber.mk true _ _ _ _ _ hdigits hzero .none .none
    rw [hparts, hvalue] at hwritten
    unfold Text.integerText
    rw [if_pos hneg, String.toList_append]
    simpa [Text.decimalText] using hwritten
  · have hparts := @numberOfParts_digitsOf n.natAbs false (by omega) (fun h => absurd h (by decide))
    have hvalue : (if (false : Bool) then -(n.natAbs : Int) else n.natAbs) = n := by
      simp only [Bool.false_eq_true, if_false]
      omega
    have hwritten := @WrittenNumber.mk false _ _ _ _ _ hdigits hzero .none .none
    rw [hparts, hvalue] at hwritten
    unfold Text.integerText
    rw [if_neg hneg]
    simpa [Text.decimalText] using hwritten

/-! ### Values -/

mutual

/-- The values that are read as they were written. -/
def IsExact : Json → Prop
  | .null | .bool _ => True
  | .number (.int n) => IsWord n
  | .number _ => False
  | .text s => s.isSome
  | .list items => AreExact items
  | .object fields => FieldsExact fields

/-- The lists of such values. -/
def AreExact : List Json → Prop
  | [] => True
  | v :: vs => IsExact v ∧ AreExact vs

/-- The lists of fields of such values. -/
def FieldsExact : List (Option String × Json) → Prop
  | [] => True
  | (k, v) :: fs => k.isSome ∧ IsExact v ∧ FieldsExact fs

end

theorem areExact_iff {vs : List Json} : AreExact vs ↔ ∀ v ∈ vs, v.IsExact := by
  induction vs with
  | nil => simp [AreExact]
  | cons v vs ih => rw [AreExact, ih, List.forall_mem_cons]

theorem fieldsExact_iff {fs : List (Option String × Json)} :
    FieldsExact fs ↔ ∀ f ∈ fs, f.1.isSome ∧ f.2.IsExact := by
  induction fs with
  | nil => simp [FieldsExact]
  | cons f fs ih => rw [FieldsExact, ih, List.forall_mem_cons, and_assoc]

theorem gap_nil : Gap [] := fun _ hc => absurd hc List.not_mem_nil

theorem Written.toElement {v : Json} {cs : List Char} (h : Written (.value v) cs) :
    Written (.element v) cs := by
  have helement := Written.element gap_nil h gap_nil
  rwa [List.nil_append, List.append_nil] at helement

/-- What a list or an object holds, between its marks. -/
theorem toList_enclosed (before after body : String) :
    (before ++ body ++ after).toList = before.toList ++ (body.toList ++ after.toList) := by
  rw [String.toList_append, String.toList_append, List.append_assoc]

theorem toList_writtenField (k : String) (text : String) :
    (writtenText k ++ ":" ++ text).toList =
      [] ++ '"' :: (k.toList.flatMap writtenChar ++ '"' :: ([] ++ ':' :: text.toList)) := by
  rw [toList_enclosed, toList_writtenText]
  simp

mutual

/-- **A value is written in the grammar of JSON.** -/
theorem written_write : ∀ v : Json, v.IsExact → Written (.value v) v.write.toList
  | .null, _ => .null
  | .bool true, _ => .true
  | .bool false, _ => .false
  | .number (.int _), h => .number (writtenNumber_int h)
  | .text (some s), _ => by
      have htext := Written.text (writtenUnits_flatMap s.toList)
      rw [ofUnits_map_char, String.ofList_toList] at htext
      rw [write, Option.getD_some, toList_writtenText]
      exact htext
  | .list vs, h => by
      rw [write, toList_enclosed]
      rcases written_writeItems vs h with rfl | hitems
      · exact .emptyList gap_nil
      · exact .list hitems
  | .object fs, h => by
      rw [write, toList_enclosed]
      rcases written_writeFields fs h with rfl | hfields
      · exact .emptyObject gap_nil
      · exact .object hfields

theorem written_writeItems : ∀ vs : List Json, AreExact vs →
    vs = [] ∨ Written (.items vs) (",".intercalate (writeItems vs)).toList
  | [], _ => .inl rfl
  | [v], h => by
      have hfirst := (written_write v h.1).toElement
      rw [writeItems, writeItems, String.intercalate_singleton]
      exact .inr (.item hfirst)
  | v :: w :: ws, h => by
      have hfirst := (written_write v h.1).toElement
      have hrest := (written_writeItems (w :: ws) h.2).resolve_left (List.cons_ne_nil w ws)
      rw [writeItems, writeItems, String.intercalate_cons_cons, toList_enclosed, ← writeItems]
      exact .inr (.items hfirst hrest)

theorem written_writeFields : ∀ fs : List (Option String × Json), FieldsExact fs →
    fs = [] ∨ Written (.fields fs) (",".intercalate (writeFields fs)).toList
  | [], _ => .inl rfl
  | [(some k, v)], h => by
      have hfirst := (written_write v h.2.1).toElement
      have hfield := Written.field gap_nil (writtenUnits_flatMap k.toList) gap_nil hfirst
      rw [ofUnits_map_char, String.ofList_toList] at hfield
      rw [writeFields, writeFields, String.intercalate_singleton, Option.getD_some,
        toList_writtenField]
      exact .inr hfield
  | (some k, v) :: (k', w) :: fs, h => by
      have hfirst := (written_write v h.2.1).toElement
      have hrest := (written_writeFields ((k', w) :: fs) h.2.2).resolve_left (List.cons_ne_nil _ fs)
      have hfields := Written.fields gap_nil (writtenUnits_flatMap k.toList) gap_nil hfirst hrest
      rw [ofUnits_map_char, String.ofList_toList] at hfields
      rw [writeFields, writeFields, String.intercalate_cons_cons, toList_enclosed, ← writeFields,
        Option.getD_some, toList_writtenField]
      have hcomma : ",".toList = [','] := rfl
      refine .inr ?_
      simpa only [hcomma, List.nil_append, List.cons_append, List.append_assoc] using hfields

end

/-- **What is written is read back.** -/
theorem ofText?_write {v : Json} (h : v.IsExact) : ofText? v.write = some v :=
  ofText?_of_writes (written_write v h).toElement

end Json

end DailyBars
