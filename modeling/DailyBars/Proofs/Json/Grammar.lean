import DailyBars.Proofs.Json.Tokens
import DailyBars.Proofs.Text.Digits
import Mathlib.Data.List.TakeWhile

/-!
# The grammar of JSON, and that the reader takes all of it

`Json.Written` says which texts write a value: the grammar of JSON, with gaps wherever they may stand
and every way to write a character. `Json.ofText?_of_writes` says that the reader takes each of these
texts for the value that it writes. What ends a number is not a part of it, so the reader may only be
trusted with a number where the text after it could not go on with it (`Json.EndsNumber`).
-/

namespace DailyBars

/-- At least one digit, and nothing else. -/
structure Text.Digits (ds : List Char) : Prop where
  ne_nil : ds ≠ []
  all : ∀ c ∈ ds, isDigit c

/-- A run of digits ends where no further digit follows. -/
theorem Text.spanDigits_append {ds rest : List Char} (h : ∀ c ∈ ds, isDigit c)
    (hend : ∀ c ∈ rest.head?, isDigit c = false) : spanDigits (ds ++ rest) = (ds, rest) := by
  induction ds with
  | nil =>
      cases rest with
      | nil => rfl
      | cons c rest => simp [spanDigits, hend c rfl]
  | cons c ds ih =>
      have hrest := ih fun d hd => h d (List.mem_cons_of_mem _ hd)
      obtain ⟨htake, hdrop⟩ := Prod.mk.inj hrest
      have hc := h c List.mem_cons_self
      simp [spanDigits, hc, htake, hdrop]

namespace Json

/-! ### The grammar -/

/-- What may stand between tokens. -/
def Gap (g : List Char) : Prop := ∀ c ∈ g, isGap c

/-- The texts that write a unit of a text: a character as it is or escaped, or an escaped half of a
surrogate pair. -/
inductive WrittenUnit : TextUnit → List Char → Prop
  | plain {c : Char} : 0x20 ≤ c.toNat → c ≠ '"' → c ≠ '\\' → WrittenUnit (.char c) [c]
  | escaped {e c : Char} : simpleEscape? e = some c → WrittenUnit (.char c) ['\\', e]
  | hex {a b c d : Char} {u : TextUnit} : unitOfHex? a b c d = some u →
      WrittenUnit u ['\\', 'u', a, b, c, d]

/-- The texts that write a number of units. -/
inductive WrittenUnits : List TextUnit → List Char → Prop
  | nil : WrittenUnits [] []
  | cons {u : TextUnit} {us : List TextUnit} {cs rest : List Char} : WrittenUnit u cs →
      WrittenUnits us rest → WrittenUnits (u :: us) (cs ++ rest)

/-- The digits after a point, if there is one. -/
inductive WrittenFraction : List Char → List Char → Prop
  | none : WrittenFraction [] []
  | some {ds : List Char} : Text.Digits ds → WrittenFraction ds ('.' :: ds)

/-- The exponent, if there is one. -/
inductive WrittenExponent : Option Int → List Char → Prop
  | none : WrittenExponent none []
  | some {mark : Char} {sign ds : List Char} : mark = 'e' ∨ mark = 'E' →
      sign = [] ∨ sign = ['+'] ∨ sign = ['-'] → Text.Digits ds →
      WrittenExponent
        (some (if sign = ['-'] then -(Text.valueOfDigits 0 ds : Int) else Text.valueOfDigits 0 ds))
        (mark :: (sign ++ ds))

/-- The texts that write a number: no zero stands in front of other digits. -/
inductive WrittenNumber : JsonNumber → List Char → Prop
  | mk {negative : Bool} {whole fraction fs es : List Char} {exponent : Option Int} :
      Text.Digits whole → ¬ (whole.head? = some '0' ∧ 1 < whole.length) →
      WrittenFraction fraction fs → WrittenExponent exponent es →
      WrittenNumber (numberOfParts negative whole fraction exponent)
        ((if negative then ['-'] else []) ++ (whole ++ (fs ++ es)))

/-- What is written: a value, the same with gaps around it, the items of a list or the fields of an
object. -/
inductive Phrase where
  | value (v : Json)
  | element (v : Json)
  | items (vs : List Json)
  | fields (fs : List (Option String × Json))

/-- The text that some units make; there is none if half of a surrogate pair is left alone. -/
def ofUnits (us : List TextUnit) : Option String := (joinUnits us).map String.ofList

/-- The texts that write a phrase. -/
inductive Written : Phrase → List Char → Prop
  | null : Written (.value .null) ['n', 'u', 'l', 'l']
  | true : Written (.value (.bool true)) ['t', 'r', 'u', 'e']
  | false : Written (.value (.bool false)) ['f', 'a', 'l', 's', 'e']
  | number {n : JsonNumber} {cs : List Char} : WrittenNumber n cs → Written (.value (.number n)) cs
  | text {us : List TextUnit} {cs : List Char} : WrittenUnits us cs →
      Written (.value (.text (ofUnits us))) ('"' :: (cs ++ ['"']))
  | emptyList {g : List Char} : Gap g → Written (.value (.list [])) ('[' :: (g ++ [']']))
  | list {vs : List Json} {cs : List Char} : Written (.items vs) cs →
      Written (.value (.list vs)) ('[' :: (cs ++ [']']))
  | emptyObject {g : List Char} : Gap g → Written (.value (.object [])) ('\x7b' :: (g ++ ['\x7d']))
  | object {fs : List (Option String × Json)} {cs : List Char} : Written (.fields fs) cs →
      Written (.value (.object fs)) ('\x7b' :: (cs ++ ['\x7d']))
  | element {v : Json} {g cs g' : List Char} : Gap g → Written (.value v) cs → Gap g' →
      Written (.element v) (g ++ (cs ++ g'))
  | item {v : Json} {cs : List Char} : Written (.element v) cs → Written (.items [v]) cs
  | items {v : Json} {vs : List Json} {cs rest : List Char} : Written (.element v) cs →
      Written (.items vs) rest → Written (.items (v :: vs)) (cs ++ ',' :: rest)
  | field {us : List TextUnit} {v : Json} {g ks g' cs : List Char} : Gap g → WrittenUnits us ks →
      Gap g' → Written (.element v) cs →
      Written (.fields [(ofUnits us, v)]) (g ++ '"' :: (ks ++ '"' :: (g' ++ ':' :: cs)))
  | fields {us : List TextUnit} {v : Json} {fs : List (Option String × Json)}
      {g ks g' cs rest : List Char} : Gap g → WrittenUnits us ks → Gap g' → Written (.element v) cs →
      Written (.fields fs) rest →
      Written (.fields ((ofUnits us, v) :: fs))
        (g ++ '"' :: (ks ++ '"' :: (g' ++ ':' :: (cs ++ ',' :: rest))))

/-- A text writes a value, with gaps around it. -/
def Writes (v : Json) (text : String) : Prop := Written (.element v) text.toList

/-! ### Units of a text -/

theorem readUnits_unit {u : TextUnit} {cs : List Char} (h : WrittenUnit u cs) {us : List TextUnit}
    {tail rest : List Char} (htail : readUnits tail = some (us, rest)) :
    readUnits (cs ++ tail) = some (u :: us, rest) := by
  cases h with
  | @plain c hlow hquote hslash =>
      have hcontrol : ¬ c.toNat < 0x20 := Nat.not_lt.mpr hlow
      rw [List.singleton_append]
      unfold readUnits
      split
      · rename_i heq
        cases heq
      · rename_i heq
        exact absurd (List.cons.inj heq).1 hquote
      · rename_i heq
        exact absurd (List.cons.inj heq).1 hslash
      · rename_i heq
        exact absurd (List.cons.inj heq).1 hslash
      · rename_i heq
        obtain ⟨rfl, rfl⟩ := List.cons.inj heq
        simp [hcontrol, hslash, htail]
  | @escaped e c he =>
      have hu : e ≠ 'u' := by
        rintro rfl
        cases he
      simp only [List.cons_append, List.nil_append]
      rw [readUnits.eq_def]
      split
      · rename_i heq
        cases heq
      · rename_i heq
        exact absurd (List.cons.inj heq).1 (by decide)
      · rename_i heq
        exact absurd (List.cons.inj (List.cons.inj heq).2).1 hu
      · rename_i heq
        obtain ⟨-, heq⟩ := List.cons.inj heq
        obtain ⟨rfl, rfl⟩ := List.cons.inj heq
        rw [he, htail]
      · rename_i hnone heq
        obtain ⟨rfl, rfl⟩ := List.cons.inj heq
        exact (hnone _ _ rfl rfl).elim
  | hex hunit =>
      simp only [List.cons_append, List.nil_append]
      rw [readUnits, hunit, htail]

/-- The units of a text are read up to its closing quote. -/
theorem readUnits_written {us : List TextUnit} {cs : List Char} (h : WrittenUnits us cs)
    (rest : List Char) : readUnits (cs ++ '"' :: rest) = some (us, rest) := by
  induction h with
  | nil => rw [List.nil_append, readUnits]
  | cons hunit _ ih =>
      rw [List.append_assoc]
      exact readUnits_unit hunit ih

/-! ### Numbers -/

/-- No number goes on with the character. -/
def IsAfterNumber (c : Char) : Prop := Text.isDigit c = false ∧ c ≠ '.' ∧ c ≠ 'e' ∧ c ≠ 'E'

instance (c : Char) : Decidable (IsAfterNumber c) := inferInstanceAs (Decidable (_ ∧ _))

/-- The text goes on with nothing that could belong to a number. -/
def EndsNumber (rest : List Char) : Prop := ∀ c ∈ rest.head?, IsAfterNumber c

theorem endsNumber_nil : EndsNumber [] := by
  intro c hc
  cases hc

theorem endsNumber_cons {c : Char} {rest : List Char} (h : IsAfterNumber c) :
    EndsNumber (c :: rest) := by
  intro d hd
  cases hd
  exact h

theorem readExponent_written {exponent : Option Int} {es : List Char}
    (h : WrittenExponent exponent es) {rest : List Char} (hrest : EndsNumber rest) :
    readExponent (es ++ rest) = some (exponent, rest) := by
  cases h with
  | none =>
      cases rest with
      | nil => rfl
      | cons c rest =>
          obtain ⟨-, -, he, hE⟩ := hrest c rfl
          simp [readExponent, he, hE]
  | @some mark sign ds hmark hsign hds =>
      have hspan : Text.spanDigits (ds ++ rest) = (ds, rest) :=
        Text.spanDigits_append hds.all fun c hc => (hrest c hc).1
      have hfirst : ∀ c ∈ (ds ++ rest).head?, c ≠ '-' ∧ c ≠ '+' := by
        obtain ⟨d, tail, rfl⟩ := List.exists_cons_of_ne_nil hds.ne_nil
        intro c hc
        cases hc
        have hd := Text.isDigit_iff.mp (hds.all _ List.mem_cons_self)
        constructor <;> rintro rfl <;> exact absurd hd (by decide)
      have hread : Text.readSign (sign ++ (ds ++ rest)) = (decide (sign = ['-']), ds ++ rest) := by
        rcases hsign with rfl | rfl | rfl
        · rw [List.nil_append]
          unfold Text.readSign
          split
          · rename_i heq
            exact absurd rfl (hfirst '-' (by rw [heq]; rfl)).1
          · rename_i heq
            exact absurd rfl (hfirst '+' (by rw [heq]; rfl)).2
          · rfl
        · rfl
        · rfl
      have hmark' : (mark = 'e' || mark = 'E') = true := by simpa using hmark
      obtain ⟨d, tail, hds'⟩ := List.exists_cons_of_ne_nil hds.ne_nil
      rw [List.cons_append, List.append_assoc]
      unfold readExponent
      simp only [hmark', if_true, hread, hspan]
      rw [hds']
      simp

theorem readFraction_written {fraction fs : List Char} (h : WrittenFraction fraction fs)
    {rest : List Char} (hrest : ∀ c ∈ rest.head?, Text.isDigit c = false ∧ c ≠ '.') :
    readFraction (fs ++ rest) = some (fraction, rest) := by
  cases h with
  | none =>
      cases rest with
      | nil => rfl
      | cons c rest =>
          have hpoint := (hrest c rfl).2
          rw [List.nil_append]
          unfold readFraction
          split
          · rename_i heq
            exact absurd (List.cons.inj heq).1 hpoint
          · rfl
  | some hds =>
      have hspan : Text.spanDigits (fraction ++ rest) = (fraction, rest) :=
        Text.spanDigits_append hds.all fun c hc => (hrest c hc).1
      obtain ⟨d, tail, rfl⟩ := List.exists_cons_of_ne_nil hds.ne_nil
      rw [List.cons_append]
      unfold readFraction
      simp only [hspan]

/-- **A number is read as far as it goes.** -/
theorem readNumber_written {n : JsonNumber} {cs : List Char} (h : WrittenNumber n cs)
    {rest : List Char} (hrest : EndsNumber rest) : readNumber (cs ++ rest) = some (n, rest) := by
  obtain @⟨negative, whole, fraction, fs, es, exponent, hwhole, hzero, hfraction, hexponent⟩ := h
  have hes : ∀ c ∈ (es ++ rest).head?, Text.isDigit c = false ∧ c ≠ '.' := by
    cases hexponent with
    | none => exact fun c hc => ⟨(hrest c hc).1, (hrest c hc).2.1⟩
    | some hmark =>
        intro c hc
        cases hc
        rcases hmark with rfl | rfl <;> decide
  have hfs : ∀ c ∈ (fs ++ (es ++ rest)).head?, Text.isDigit c = false := by
    cases hfraction with
    | none => exact fun c hc => (hes c hc).1
    | some =>
        intro c hc
        cases hc
        rfl
  have hspan := Text.spanDigits_append hwhole.all hfs
  obtain ⟨d, tail, hcons⟩ := List.exists_cons_of_ne_nil hwhole.ne_nil
  have hminus : d ≠ '-' := by
    rintro rfl
    exact absurd (hwhole.all '-' (hcons ▸ List.mem_cons_self)) (by decide)
  have hdigits : ¬ (whole.head? = some '0' && 1 < whole.length) = true := by simpa using hzero
  have htext : (if negative then ['-'] else []) ++ (whole ++ (fs ++ es)) ++ rest =
      (if negative then ['-'] else []) ++ (whole ++ (fs ++ (es ++ rest))) := by
    simp only [List.append_assoc]
  rw [htext]
  unfold readNumber
  split
  rename_i negative' body hbody
  have hparts : negative' = negative ∧ body = whole ++ (fs ++ (es ++ rest)) := by
    cases negative with
    | true =>
        obtain ⟨rfl, rfl⟩ := Prod.mk.inj hbody
        exact ⟨rfl, rfl⟩
    | false =>
        simp only [Bool.false_eq_true, if_false, List.nil_append, hcons, List.cons_append] at hbody
        split at hbody
        · rename_i heq
          exact absurd (List.cons.inj heq).1 hminus
        · obtain ⟨rfl, rfl⟩ := Prod.mk.inj hbody
          exact ⟨rfl, by rw [hcons, List.cons_append]⟩
  obtain ⟨rfl, rfl⟩ := hparts
  split
  · rename_i heq
    rw [hspan] at heq
    exact absurd (Prod.mk.inj heq).1 hwhole.ne_nil
  · rename_i whole' rest' _ heq
    rw [hspan] at heq
    obtain ⟨rfl, rfl⟩ := Prod.mk.inj heq
    rw [if_neg hdigits]
    simp only [readFraction_written hfraction hes, readExponent_written hexponent hrest]

/-! ### Tokens -/

theorem tokens_gap_append {g : List Char} (hg : Gap g) (cs : List Char) :
    tokens (g ++ cs) = tokens cs := by
  induction g with
  | nil => rfl
  | cons c g ih =>
      have hc : isGap c := hg c List.mem_cons_self
      rw [List.cons_append, tokens, if_pos hc]
      exact ih fun d hd => hg d (List.mem_cons_of_mem _ hd)

/-- A token at the head of a text is the first of its tokens. -/
theorem tokens_of_readToken {c : Char} {cs rest : List Char} {t : Token} (hc : isGap c = false)
    (h : readToken (c :: cs) = some (t, rest)) :
    tokens (c :: cs) = (tokens rest).map (t :: ·) := by
  rw [tokens, if_neg (by simp [hc])]
  split
  · rename_i hnone
    rw [h] at hnone
    cases hnone
  · rename_i hsome
    rw [h] at hsome
    cases hsome
    rfl

/-- Where a number can be read, that is the token. -/
theorem readToken_of_readNumber {cs rest : List Char} {n : JsonNumber}
    (h : readNumber cs = some (n, rest)) : readToken cs = some (.leaf (.number n), rest) := by
  have hother {c : Char} {left : List Char} (hminus : c ≠ '-') (hdigit : Text.isDigit c = false)
      (hread : readNumber (c :: left) = some (n, rest)) : False := by
    simp [readNumber, hminus, Text.spanDigits, hdigit] at hread
  unfold readToken
  split
  case h_11 => rw [h]; rfl
  all_goals exact (hother (by decide) (by decide) h).elim

theorem isGap_of_readNumber {c : Char} {cs rest : List Char} {n : JsonNumber}
    (h : readNumber (c :: cs) = some (n, rest)) : isGap c = false := by
  cases hgap : isGap c with
  | false => rfl
  | true =>
      simp only [isGap, Bool.or_eq_true, decide_eq_true_eq, or_assoc] at hgap
      rcases hgap with rfl | rfl | rfl | rfl <;> simp [readNumber, Text.spanDigits, Text.isDigit] at h

/-- The characters make these tokens, whatever stands after them that ends a number. -/
def Reads (cs : List Char) (ts : List Token) : Prop :=
  ∀ rest, EndsNumber rest → tokens (cs ++ rest) = (tokens rest).map (ts ++ ·)

namespace Reads

theorem nil : Reads [] [] := by
  intro rest _
  cases htokens : tokens rest <;> simp [htokens]

theorem append {cs cs' : List Char} {ts ts' : List Token} (h : Reads cs ts) (h' : Reads cs' ts')
    (hend : ∀ rest, EndsNumber rest → EndsNumber (cs' ++ rest)) :
    Reads (cs ++ cs') (ts ++ ts') := by
  intro rest hrest
  rw [List.append_assoc, h _ (hend rest hrest), h' rest hrest, Option.map_map]
  congr 1
  funext us
  exact (List.append_assoc ts ts' us).symm

theorem gap_append {g cs : List Char} {ts : List Token} (hg : Gap g) (h : Reads cs ts) :
    Reads (g ++ cs) ts := by
  intro rest hrest
  rw [List.append_assoc, tokens_gap_append hg, h rest hrest]

theorem append_gap {g cs : List Char} {ts : List Token} (h : Reads cs ts) (hg : Gap g) :
    Reads (cs ++ g) ts := by
  have hends : ∀ rest, EndsNumber rest → EndsNumber (g ++ rest) := by
    intro rest hrest
    cases g with
    | nil => exact hrest
    | cons c g =>
        have hc : isGap c := hg c List.mem_cons_self
        refine endsNumber_cons ?_
        simp only [isGap, Bool.or_eq_true, decide_eq_true_eq, or_assoc] at hc
        rcases hc with rfl | rfl | rfl | rfl <;> decide
  have hgap : Reads (g ++ []) [] := gap_append hg nil
  rw [List.append_nil] at hgap
  have happend := h.append hgap hends
  rwa [List.append_nil] at happend

/-- A token in front of others. -/
theorem cons {c : Char} {cs ds : List Char} {t : Token} {ts : List Token} (hc : isGap c = false)
    (htoken : ∀ rest, readToken (c :: (cs ++ rest)) = some (t, rest)) (hds : Reads ds ts) :
    Reads (c :: (cs ++ ds)) (t :: ts) := by
  intro rest hrest
  rw [List.cons_append, List.append_assoc, tokens_of_readToken hc (htoken _), hds rest hrest,
    Option.map_map]
  rfl

/-- A token that is read wherever it stands. -/
theorem single {c : Char} {cs : List Char} {t : Token} (hc : isGap c = false)
    (htoken : ∀ rest, readToken (c :: (cs ++ rest)) = some (t, rest)) : Reads (c :: cs) [t] := by
  have h := cons hc htoken nil
  rwa [List.append_nil] at h

/-- A mark in front of tokens. -/
theorem mark_cons {c : Char} {ds : List Char} {t : Token} {ts : List Token} (hc : isGap c = false)
    (htoken : ∀ rest, readToken (c :: rest) = some (t, rest)) (hds : Reads ds ts) :
    Reads (c :: ds) (t :: ts) := by
  have h : Reads (c :: ([] ++ ds)) (t :: ts) := cons hc htoken hds
  exact h

/-- Tokens, and after them a mark and what follows it. -/
theorem append_mark {c : Char} {cs ds : List Char} {t : Token} {ts us : List Token}
    (h : Reads cs ts) (hc : isGap c = false) (hafter : IsAfterNumber c)
    (htoken : ∀ rest, readToken (c :: rest) = some (t, rest)) (hds : Reads ds us) :
    Reads (cs ++ c :: ds) (ts ++ t :: us) :=
  h.append (mark_cons hc htoken hds) fun _ _ => endsNumber_cons hafter

/-- A text between quotes, and what follows it. -/
theorem text_append {us : List TextUnit} {ks cs : List Char} {ts : List Token}
    (hunits : WrittenUnits us ks) (h : Reads cs ts) :
    Reads ('"' :: (ks ++ '"' :: cs)) (.leaf (.text (ofUnits us)) :: ts) := by
  have htoken (rest : List Char) : readToken ('"' :: ((ks ++ ['"']) ++ rest)) =
      some (.leaf (.text (ofUnits us)), rest) := by
    rw [readToken, List.append_assoc, List.singleton_append, readUnits_written hunits]
    rfl
  have hall := cons (by decide) htoken h
  rwa [List.append_assoc, List.singleton_append] at hall

theorem number {n : JsonNumber} {cs : List Char} (h : WrittenNumber n cs) :
    Reads cs [.leaf (.number n)] := by
  intro rest hrest
  have hread := readNumber_written h hrest
  cases hcs : cs ++ rest with
  | nil =>
      rw [hcs] at hread
      cases hread
  | cons c left =>
      rw [hcs] at hread
      exact tokens_of_readToken (isGap_of_readNumber hread) (readToken_of_readNumber hread)

end Reads

/-! ### Putting the tokens together -/

/-- What the tokens of a phrase do: a value is given to what is open, items and fields are put in
front of those that the innermost list or object holds. -/
def Phrase.Assembled : Phrase → List Token → Prop
  | .value v, ts | .element v, ts => ∀ fs expected, expected = .value ∨ expected = .firstItem →
      ts.foldlM assemble (fs, expected) = some (give v fs)
  | .items vs, ts => ∀ held fs expected, expected = .value ∨ expected = .firstItem →
      ts.foldlM assemble (.list held :: fs, expected) =
        some (.list (vs.reverse ++ held) :: fs, .separator)
  | .fields es, ts => ∀ held k fs expected, expected = .firstName ∨ expected = .name →
      ∃ k', ts.foldlM assemble (.object held k :: fs, expected) =
        some (.object (es.reverse ++ held) k' :: fs, .separator)

/-- A single token with a value. -/
theorem assembled_leaf (v : Json) : (Phrase.value v).Assembled [.leaf v] := by
  rintro fs expected (rfl | rfl) <;> rfl

/-- The name of a field, its colon and its value. -/
theorem foldlM_field {v : Json} {ts : List Token} (h : (Phrase.element v).Assembled ts)
    (k : Option String) (held : List (Option String × Json)) (k' : Option String)
    (fs : List Frame) (expected : Expected) (hexpected : expected = .firstName ∨ expected = .name) :
    (Token.leaf (.text k) :: .colon :: ts).foldlM assemble (.object held k' :: fs, expected) =
      some (.object ((k, v) :: held) k :: fs, .separator) := by
  have hvalue := h (.object held k :: fs) .value (.inl rfl)
  rcases hexpected with rfl | rfl <;> exact hvalue

/-- **What is written is read**: the text of a phrase makes tokens that put the phrase together. -/
theorem Written.reads {p : Phrase} {cs : List Char} (h : Written p cs) :
    ∃ ts, Reads cs ts ∧ p.Assembled ts := by
  induction h with
  | null => exact ⟨_, .single (by decide) fun _ => rfl, assembled_leaf _⟩
  | true => exact ⟨_, .single (by decide) fun _ => rfl, assembled_leaf _⟩
  | false => exact ⟨_, .single (by decide) fun _ => rfl, assembled_leaf _⟩
  | number hn => exact ⟨_, .number hn, assembled_leaf _⟩
  | text hus => exact ⟨_, .text_append hus .nil, assembled_leaf _⟩
  | emptyList hg =>
      refine ⟨[.openList, .closeList], ?_, ?_⟩
      · have hclose : Reads [']'] [.closeList] := .single (by decide) fun _ => rfl
        exact .mark_cons (by decide) (fun _ => rfl) (.gap_append hg hclose)
      · rintro fs expected (rfl | rfl) <;> rfl
  | @list vs cs _ ih =>
      obtain ⟨ts, hreads, hall⟩ := ih
      refine ⟨.openList :: (ts ++ [.closeList]), ?_, ?_⟩
      · have hclose := hreads.append_mark (c := ']') (by decide) (by decide) (fun _ => rfl) .nil
        exact .mark_cons (by decide) (fun _ => rfl) hclose
      · intro fs expected hexpected
        have hitems := hall [] fs .firstItem (.inr rfl)
        have hopen : assemble (fs, expected) .openList = some (.list [] :: fs, .firstItem) := by
          rcases hexpected with rfl | rfl <;> rfl
        rw [List.foldlM_cons, hopen, Option.bind_eq_bind, Option.bind_some, List.foldlM_append,
          hitems]
        simp [assemble]
  | emptyObject hg =>
      refine ⟨[.openObject, .closeObject], ?_, ?_⟩
      · have hclose : Reads ['}'] [.closeObject] := .single (by decide) fun _ => rfl
        exact .mark_cons (by decide) (fun _ => rfl) (.gap_append hg hclose)
      · rintro fs expected (rfl | rfl) <;> rfl
  | @object es cs _ ih =>
      obtain ⟨ts, hreads, hall⟩ := ih
      refine ⟨.openObject :: (ts ++ [.closeObject]), ?_, ?_⟩
      · have hclose := hreads.append_mark (c := '}') (by decide) (by decide) (fun _ => rfl) .nil
        exact .mark_cons (by decide) (fun _ => rfl) hclose
      · intro fs expected hexpected
        obtain ⟨k', hfields⟩ := hall [] none fs .firstName (.inl rfl)
        have hopen : assemble (fs, expected) .openObject =
            some (.object [] none :: fs, .firstName) := by
          rcases hexpected with rfl | rfl <;> rfl
        rw [List.foldlM_cons, hopen, Option.bind_eq_bind, Option.bind_some, List.foldlM_append,
          hfields]
        simp [assemble]
  | element hg _ hg' ih =>
      obtain ⟨ts, hreads, hall⟩ := ih
      exact ⟨ts, .gap_append hg (hreads.append_gap hg'), hall⟩
  | item _ ih =>
      obtain ⟨ts, hreads, hall⟩ := ih
      exact ⟨ts, hreads, fun held fs expected hexpected => hall (.list held :: fs) expected hexpected⟩
  | @items v vs cs rest _ _ ih ihrest =>
      obtain ⟨ts, hreads, hall⟩ := ih
      obtain ⟨us, hreads', hall'⟩ := ihrest
      refine ⟨ts ++ .comma :: us,
        hreads.append_mark (by decide) (by decide) (fun _ => rfl) hreads', ?_⟩
      intro held fs expected hexpected
      have hfirst := hall (.list held :: fs) expected hexpected
      have hothers := hall' (v :: held) fs .value (.inl rfl)
      rw [List.foldlM_append, hfirst, List.reverse_cons, List.append_assoc, List.singleton_append]
      exact hothers
  | field hg hks hg' _ ih =>
      obtain ⟨ts, hreads, hall⟩ := ih
      refine ⟨_, .gap_append hg (.text_append hks (.gap_append hg'
        (.mark_cons (by decide) (fun _ => rfl) hreads))), ?_⟩
      intro held k fs expected hexpected
      exact ⟨_, foldlM_field hall _ held k fs expected hexpected⟩
  | @fields us v es g ks g' cs rest hg hks hg' _ _ ih ihrest =>
      obtain ⟨ts, hreads, hall⟩ := ih
      obtain ⟨ts', hreads', hall'⟩ := ihrest
      refine ⟨_, .gap_append hg (.text_append hks (.gap_append hg'
        (.mark_cons (by decide) (fun _ => rfl)
          (hreads.append_mark (by decide) (by decide) (fun _ => rfl) hreads')))), ?_⟩
      intro held k fs expected hexpected
      have hfirst := foldlM_field hall (ofUnits us) held k fs expected hexpected
      obtain ⟨k', hothers⟩ := hall' ((ofUnits us, v) :: held) (ofUnits us) fs .name (.inr rfl)
      refine ⟨k', ?_⟩
      rw [← List.cons_append, ← List.cons_append, List.foldlM_append, hfirst, List.reverse_cons,
        List.append_assoc, List.singleton_append]
      exact hothers

/-- **Every text that writes a value is read as that value.** -/
theorem ofText?_of_writes {v : Json} {text : String} (h : Writes v text) : ofText? text = some v := by
  obtain ⟨ts, hreads, hall⟩ := Written.reads h
  have htokens := hreads [] endsNumber_nil
  rw [List.append_nil, tokens, Option.map_some, List.append_nil] at htokens
  have hassembled := hall [] .value (.inl rfl)
  rw [ofText?, htokens, Option.bind_some, ofTokens?, hassembled]
  rfl

end Json

end DailyBars
