import DailyBars.Broker.Page
import DailyBars.Proofs.Calendar.Compact
import DailyBars.Proofs.Decimal.Plain
import DailyBars.Proofs.Json.Records
import DailyBars.Proofs.Json.Tokens
import Mathlib.Data.List.Forall2

/-!
# Reading the rows of a page

The texts of a row, under the names that an address has for its parts. A row is read if its numbers can
be read, in whatever order its fields stand and whatever other fields stand between them
(`PriceRow.decoder_isOk`), and it is read in no other case (`PriceRow.wellTyped_of_decoder`). Each part
of it is then as its own text says (`PriceRow.holds_of_decoder`).
-/

namespace DailyBars

open Json (valuesOf)

/-! ### Numbers of a row -/

namespace Decimal

/-- A number in plain notation holds a digit and no white space. -/
theorem IsPlain.chars {d : Decimal} {cs : List Char} (h : IsPlain d cs) :
    (∃ c ∈ cs, Text.isDigit c) ∧ ∀ c ∈ cs, Text.isBlank c = false := by
  have hsigns {sign : List Char} (hsign : IsSign sign) : ∀ c ∈ sign, Text.isBlank c = false := by
    rcases hsign with rfl | rfl | rfl
    · simp
    · rw [List.forall_mem_singleton]
      rfl
    · rw [List.forall_mem_singleton]
      rfl
  have hdigit {ds : List Char} (hds : ∀ c ∈ ds, Text.isDigit c) (hne : ds ≠ []) :
      ∃ c ∈ ds, Text.isDigit c := by
    obtain ⟨c, ds, rfl⟩ := List.exists_cons_of_ne_nil hne
    exact ⟨c, List.mem_cons_self, hds c List.mem_cons_self⟩
  cases h with
  | whole hsign hds hne _ =>
      obtain ⟨c, hc, hcdigit⟩ := hdigit hds hne
      refine ⟨⟨c, List.mem_append_right _ hc, hcdigit⟩, fun c hc => ?_⟩
      rcases List.mem_append.mp hc with hc | hc
      · exact hsigns hsign c hc
      · exact Text.isBlank_of_isDigit (hds c hc)
  | @point sign ds fraction hsign hds hne _ =>
      obtain ⟨c, hc, hcdigit⟩ := hdigit hds hne
      constructor
      · refine ⟨c, ?_, hcdigit⟩
        simp only [List.mem_append, List.mem_cons] at hc ⊢
        exact .inr (hc.imp_right .inr)
      · intro c hc
        simp only [List.mem_append, List.mem_cons] at hc hds
        rcases hc with hc | hc | rfl | hc
        · exact hsigns hsign c hc
        · exact Text.isBlank_of_isDigit (hds c (.inl hc))
        · decide
        · exact Text.isBlank_of_isDigit (hds c (.inr hc))

end Decimal

namespace PriceRow

/-- The texts that are taken as numbers: blank, a dash or a decimal. -/
def IsNumber (s : String) : Prop :=
  Text.trim s = "" ∨ Text.trim s = "-" ∨ ∃ d, Decimal.ofText? (Text.trim s) = some d

/-- A text is read as a number exactly if it is taken as one. -/
theorem exists_readNumber_iff {s : String} : (∃ d, readNumber s = .ok d) ↔ IsNumber s := by
  unfold readNumber IsNumber
  dsimp only
  by_cases hzero : Text.trim s = "" ∨ Text.trim s = "-"
  · rw [if_pos hzero, ← or_assoc]
    exact ⟨fun _ => .inl hzero, fun _ => ⟨_, rfl⟩⟩
  · rw [if_neg hzero, ← or_assoc, or_iff_right hzero]
    cases Decimal.ofText? (Text.trim s) <;> simp

/-- What may stand for a number: nothing, white space or a dash for zero, and each number in plain
notation, with white space around it. -/
inductive Tells : Option String → Decimal → Prop
  | leftOut : Tells none .zero
  | blank {s : String} : Text.IsAround [] s → Tells (some s) .zero
  | dash {s : String} : Text.IsAround ['-'] s → Tells (some s) .zero
  | plain {s : String} {cs : List Char} {d : Decimal} : d.IsPlain cs → Text.IsAround cs s →
      Tells (some s) d

/-- Reads the text of a number, which may be missing. -/
def readText : Option String → Except String Decimal
  | none => .ok .zero
  | some s => readNumber s

/-- **What tells a number is read as that number.** -/
theorem Tells.readText_eq {t : Option String} {d : Decimal} (h : Tells t d) : readText t = .ok d := by
  cases h with
  | leftOut => rfl
  | blank hs =>
      have htrim := hs.trim_eq (by simp)
      exact if_pos (.inl htrim)
  | dash hs =>
      have htrim := hs.trim_eq (by rw [List.forall_mem_singleton]; rfl)
      exact if_pos (.inr htrim)
  | @plain s cs d hplain hs =>
      obtain ⟨⟨c, hc, hdigit⟩, hblank⟩ := hplain.chars
      have htrim := hs.trim_eq hblank
      have hne : ¬ (Text.trim s = "" ∨ Text.trim s = "-") := by
        rintro (hempty | hdash)
        · rw [String.ofList_injective (htrim.symm.trans hempty : _ = String.ofList [])] at hc
          cases hc
        · rw [String.ofList_injective (htrim.symm.trans hdash : _ = String.ofList ['-'])] at hc
          rw [List.mem_singleton.mp hc] at hdigit
          cases hdigit
      unfold readText readNumber
      dsimp only
      rw [if_neg hne, htrim, hplain.ofText?_eq]

/-! ### Parts of a row -/

/-- The name that a part has at an address; overseas indices have no traded value. -/
def Part.nameAt (e : Endpoint) : Part → Option String
  | .date => some (match e with
    | .overseasStock => "xymd"
    | _ => "stck_bsop_date")
  | .openPrice => some (match e with
    | .domesticStock => "stck_oprc"
    | .domesticIndex => "bstp_nmix_oprc"
    | .overseasStock => "open"
    | .overseasIndex => "ovrs_nmix_oprc")
  | .high => some (match e with
    | .domesticStock => "stck_hgpr"
    | .domesticIndex => "bstp_nmix_hgpr"
    | .overseasStock => "high"
    | .overseasIndex => "ovrs_nmix_hgpr")
  | .low => some (match e with
    | .domesticStock => "stck_lwpr"
    | .domesticIndex => "bstp_nmix_lwpr"
    | .overseasStock => "low"
    | .overseasIndex => "ovrs_nmix_lwpr")
  | .close => some (match e with
    | .domesticStock => "stck_clpr"
    | .domesticIndex => "bstp_nmix_prpr"
    | .overseasStock => "clos"
    | .overseasIndex => "ovrs_nmix_prpr")
  | .volume => some (match e with
    | .overseasStock => "tvol"
    | _ => "acml_vol")
  | .tradingValue => match e with
    | .domesticStock | .domesticIndex => some "acml_tr_pbmn"
    | .overseasStock => some "tamt"
    | .overseasIndex => none

/-- The fields that are read at an address. -/
def fieldsAt (e : Endpoint) : List (Decoder.Field PriceRow) :=
  (layout e).map fun (p, name) => p.field name

theorem decoder_eq (e : Endpoint) : decoder e = Decoder.record (title e) (fieldsAt e) blank := rfl

section Fields

variable {e : Endpoint} {p q : Part} {name : String} {g : Decoder.Field PriceRow} {r r' : PriceRow}
  {v : Json} {s : String} {t : Option String}

theorem Part.field_name (p : Part) (name : String) : (p.field name).name = name := by
  cases p <;> rfl

theorem Part.field_absence (p : Part) (name : String) : (p.field name).absence = .defaulted := by
  cases p <;> rfl

/-- The fields at an address are those of the parts, under their names there. -/
theorem mem_fieldsAt :
    g ∈ fieldsAt e ↔ ∃ (p : Part) (name : String), p.nameAt e = some name ∧ g = p.field name := by
  constructor
  · intro hg
    have hnames : ∀ x ∈ layout e, x.1.nameAt e = some x.2 := by
      cases e <;> decide
    obtain ⟨⟨p, name⟩, hmem, rfl⟩ := List.mem_map.mp hg
    exact ⟨p, name, hnames _ hmem, rfl⟩
  · rintro ⟨p, name, hname, rfl⟩
    refine List.mem_map.mpr ⟨(p, name), ?_, rfl⟩
    cases e <;> cases p <;> cases hname <;> simp [layout]

/-- A name at an address is found as the field of its part. -/
theorem find?_fieldsAt (h : p.nameAt e = some name) :
    (fieldsAt e).find? (fun g => g.name == (p.field name).name) = some (p.field name) := by
  cases e <;> cases p <;> cases h <;> rfl

/-- A row holds what a text says of a part of it; a part without a text is blank. -/
def Part.Holds (p : Part) (t : Option String) (r : PriceRow) : Prop :=
  match p with
  | .date => r.date = t.getD ""
  | .openPrice => readText t = .ok r.openPrice
  | .high => readText t = .ok r.high
  | .low => readText t = .ok r.low
  | .close => readText t = .ok r.close
  | .volume => readText t = .ok r.volume
  | .tradingValue => readText t = .ok r.tradingValue

theorem Part.holds_blank (p : Part) : p.Holds none blank := by
  cases p <;> rfl

/-- Reading a number is reading its text. -/
theorem number_str (s : String) :
    number .text (.str s) = (readNumber s).mapError DecodeError.refused := rfl

/-- A field can be read from a text exactly if the text is taken as a number where one is wanted. -/
theorem Part.exists_read_iff :
    (∃ r', (p.field name).read .text (.str s) r = .ok r') ↔ (p ≠ .date → IsNumber s) := by
  rw [← exists_readNumber_iff]
  cases p with
  | date => exact ⟨fun _ hne => absurd rfl hne, fun _ => ⟨_, rfl⟩⟩
  | _ =>
      simp only [Part.field, Decoder.defaulted, Decoder.field, number_str]
      cases readNumber s <;> simp [Except.mapError, Except.map]

/-- What is read from a field is what its text says. -/
theorem Part.holds_of_read (h : (p.field name).read .text (.str s) r = .ok r') :
    p.Holds (some s) r' := by
  cases p with
  | date =>
      cases h
      rfl
  | _ =>
      simp only [Part.field, Decoder.defaulted, Decoder.field, number_str] at h
      simp only [Part.Holds, readText]
      cases hread : readNumber s with
      | error e =>
          rw [hread] at h
          cases h
      | ok d =>
          rw [hread] at h
          cases h
          rfl

/-- A field does not touch the other parts. -/
theorem Part.holds_of_read_other (hne : q ≠ p) (h : (q.field name).read .text v r = .ok r')
    (hp : p.Holds t r) : p.Holds t r' := by
  have hset : ∀ {α : Type} {x : Except DecodeError α} {set : α → PriceRow},
      x.map set = .ok r' → ∃ a, r' = set a := by
    intro α x set hx
    cases x with
    | error e => cases hx
    | ok a => exact ⟨a, (Except.ok.inj hx).symm⟩
  cases q <;> obtain ⟨a, rfl⟩ := hset h <;> cases p <;> first | exact absurd rfl hne | exact hp

end Fields

/-! ### Rows -/

/-- The texts of a row, by the parts that they stand for; a part may be left out. -/
abbrev Texts := Part → Option String

/-- An object with the texts under their names at an address, in any order and among any other
fields. -/
structure Texts.IsWritten (e : Endpoint) (texts : Texts) (entries : List (Option String × Json)) :
    Prop where
  names : ∀ f ∈ entries, f.1.isSome
  parts : ∀ (p : Part) (name : String), p.nameAt e = some name →
    valuesOf name entries = (texts p).toList.map .str

/-- The texts that stand for numbers at an address are taken as numbers. -/
def Texts.WellTyped (e : Endpoint) (texts : Texts) : Prop :=
  ∀ p : Part, p ≠ .date → p.nameAt e ≠ none → ∀ s ∈ texts p, IsNumber s

variable {e : Endpoint} {texts : Texts} {entries : List (Option String × Json)} {r : PriceRow}

namespace Texts.IsWritten

variable {p : Part} {name s : String} {v : Json}

theorem mem_valuesOf (h : texts.IsWritten e entries) (hname : p.nameAt e = some name)
    (hv : v ∈ valuesOf (p.field name).name entries) : ∃ s ∈ texts p, v = .str s := by
  rw [Part.field_name, h.parts p name hname] at hv
  obtain ⟨s, hs, rfl⟩ := List.mem_map.mp hv
  exact ⟨s, Option.mem_toList.mp hs, rfl⟩

theorem str_mem_valuesOf (h : texts.IsWritten e entries) (hname : p.nameAt e = some name)
    (hs : s ∈ texts p) : Json.str s ∈ valuesOf (p.field name).name entries := by
  rw [Part.field_name, h.parts p name hname]
  exact List.mem_map.mpr ⟨s, Option.mem_toList.mpr hs, rfl⟩

end Texts.IsWritten

/-- **A row of texts is read if its numbers can be read.** -/
theorem decoder_isOk (h : texts.IsWritten e entries) (htyped : texts.WellTyped e) :
    ∃ r, decoder e .text (.object entries) = .ok r := by
  rw [decoder_eq]
  refine Decoder.record_isOk h.names ?_ ?_ ?_
  · intro g hg
    obtain ⟨p, name, hname, rfl⟩ := mem_fieldsAt.mp hg
    rw [Part.field_name, h.parts p name hname, List.length_map, Option.length_toList]
    split <;> decide
  · intro g hg v hv r
    obtain ⟨p, name, hname, rfl⟩ := mem_fieldsAt.mp hg
    obtain ⟨s, hs, rfl⟩ := h.mem_valuesOf hname hv
    refine Part.exists_read_iff.mpr fun hdate => htyped p hdate ?_ s hs
    rw [hname]
    exact Option.some_ne_none name
  · intro g hg hforbidden
    obtain ⟨p, name, -, rfl⟩ := mem_fieldsAt.mp hg
    rw [Part.field_absence] at hforbidden
    cases hforbidden

/-- No other row of texts is read. -/
theorem wellTyped_of_decoder (h : texts.IsWritten e entries)
    (hok : decoder e .text (.object entries) = .ok r) : texts.WellTyped e := by
  rw [decoder_eq] at hok
  intro p hdate hname s hs
  obtain ⟨name, hname⟩ := Option.ne_none_iff_exists'.mp hname
  obtain ⟨r₀, r₁, hread⟩ := Decoder.exists_read_of_record hok (find?_fieldsAt hname)
    (h.str_mem_valuesOf hname hs)
  exact Part.exists_read_iff.mp ⟨r₁, hread⟩ hdate

/-- **Each part of a row is as its text says**, and a part without a name at the address is blank. -/
theorem holds_of_decoder (h : texts.IsWritten e entries)
    (hok : decoder e .text (.object entries) = .ok r) (p : Part) :
    p.Holds (if p.nameAt e = none then none else texts p) r := by
  rw [decoder_eq] at hok
  cases hname : p.nameAt e with
  | none =>
      rw [if_pos rfl]
      refine Decoder.record_frame hok ?_ p.holds_blank
      intro g hg v r₀ r₁ hread hp
      obtain ⟨q, name, hq, rfl⟩ := mem_fieldsAt.mp hg
      have hne : q ≠ p := by
        rintro rfl
        rw [hname] at hq
        cases hq
      exact Part.holds_of_read_other hne hread hp
  | some name =>
      rw [if_neg (Option.some_ne_none name)]
      refine Decoder.record_field hok (find?_fieldsAt hname) ?_ ?_ ?_
      · intro g hg hne v r₀ r₁ hread hp
        obtain ⟨q, name', hq, rfl⟩ := mem_fieldsAt.mp hg
        have hqp : q ≠ p := by
          rintro rfl
          rw [hname] at hq
          cases hq
          exact hne rfl
        exact Part.holds_of_read_other hqp hread hp
      · intro v hv r₀ r₁ hread
        obtain ⟨s, hs, rfl⟩ := h.mem_valuesOf hname hv
        rw [Option.mem_def.mp hs]
        exact Part.holds_of_read hread
      · intro hnil
        rw [Part.field_name, h.parts p name hname] at hnil
        rw [Option.toList_eq_nil_iff.mp (List.map_eq_nil_iff.mp hnil)]
        exact p.holds_blank

end PriceRow

end DailyBars
