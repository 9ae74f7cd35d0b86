import DailyBars.Proofs.Broker.PriceRows
import DailyBars.Proofs.Json.Written
import Mathlib.Data.List.ReduceOption

/-!
# Decoding a page

A page is the text of an envelope whose rows hold texts. Rows that tell of bars, or of no day, are read
as exactly these bars, in order; one row with a date or a number that cannot be read makes the page an
error; and the rows of a refusal count for nothing beside its code and its message.
-/

namespace DailyBars

open Json (valuesOf)

/-! ### Fields with a decoder and a setter -/

namespace Decoder

variable {ρ α : Type} {name : String} {absence : Absence} {d : Decoder α} {set : ρ → α → ρ}
  {form : JsonForm} {v : Json} {r r' : ρ}

theorem field_read_eq_ok :
    (field name absence d set).read form v r = .ok r' ↔ ∃ a, d form v = .ok a ∧ r' = set r a := by
  simp only [field]
  cases d form v with
  | error e => simp [Except.map]
  | ok a => simp [Except.map, eq_comm]

theorem list_eq_ok {vs : List Json} {as : List α} :
    list d form (.list vs) = .ok as ↔ List.Forall₂ (fun v a => d form v = .ok a) vs as := by
  simp only [list]
  induction vs generalizing as with
  | nil =>
      rw [List.mapM_nil, List.forall₂_nil_left_iff]
      exact ⟨fun h => (Except.ok.inj h).symm, fun h => h ▸ rfl⟩
  | cons v vs ih =>
      rw [List.mapM_cons, List.forall₂_cons_left_iff]
      cases d form v with
      | error e => simp [bind, Except.bind]
      | ok a =>
          cases hrest : vs.mapM (d form) with
          | error e =>
              constructor
              · intro h
                cases h
              · rintro ⟨b, bs, -, hbs, -⟩
                rw [ih.mpr hbs] at hrest
                cases hrest
          | ok bs =>
              constructor
              · intro h
                cases h
                exact ⟨a, bs, rfl, ih.mp hrest, rfl⟩
              · rintro ⟨b, cs, hb, hcs, rfl⟩
                cases hb
                rw [ih.mpr hcs] at hrest
                cases hrest
                rfl

end Decoder

/-! ### Bars of rows -/

namespace PriceRow

/-- Rows with a bar or none each give these bars, in order. -/
theorem bars_eq_ok {rows : List PriceRow} {entries : List (Option Bar)}
    (h : List.Forall₂ (fun r entry => toBar? r = .ok entry) rows entries) :
    bars rows = .ok entries.reduceOption := by
  induction h with
  | nil => rfl
  | @cons r entry rows entries hr _ ih =>
      unfold bars
      rw [hr, ih]
      cases entry <;> rfl

/-- A row that gives no bar is one whose date cannot be read. -/
theorem eq_parse_of_toBar? {r : PriceRow} {e : BrokerError} (h : r.toBar? = .error e) :
    ∃ reason, e = .parse reason := by
  unfold toBar? at h
  dsimp only at h
  split at h
  · cases h
  · split at h
    · cases h
    · cases h
      exact ⟨_, rfl⟩

/-- One row whose date cannot be read is enough. -/
theorem bars_eq_error {rows : List PriceRow} {r : PriceRow} {e : BrokerError} (hr : r ∈ rows)
    (h : r.toBar? = .error e) : ∃ reason, bars rows = .error (.parse reason) := by
  induction rows with
  | nil => cases hr
  | cons s rows ih =>
      unfold bars
      cases hs : s.toBar? with
      | error e' =>
          obtain ⟨reason, rfl⟩ := eq_parse_of_toBar? hs
          exact ⟨reason, rfl⟩
      | ok entry =>
          rcases List.mem_cons.mp hr with rfl | hmem
          · rw [hs] at h
            cases h
          · obtain ⟨reason, hrest⟩ := ih hmem
            rw [hrest]
            exact ⟨reason, rfl⟩

/-- The texts of a row tell of a bar. -/
structure Texts.TellsBar (texts : Texts) (b : Bar) : Prop where
  year : 0 ≤ b.tradeDate.civil.year ∧ b.tradeDate.civil.year ≤ 9999
  date : ∃ s, texts .date = some s ∧ Text.IsAround b.tradeDate.compact.toList s
  openPrice : Tells (texts .openPrice) b.openPrice
  high : Tells (texts .high) b.high
  low : Tells (texts .low) b.low
  close : Tells (texts .close) b.close
  volume : Tells (texts .volume) b.volume
  tradingValue : Tells (texts .tradingValue) b.tradingValue

/-- The texts of a row tell of a bar, or of no day: then the date is missing or white space and the
numbers may be any. -/
inductive Texts.TellsEntry (e : Endpoint) (texts : Texts) : Option Bar → Prop
  | bar {b : Bar} : texts.TellsBar b → TellsEntry e texts (some b)
  | padding : (∀ s ∈ texts .date, Text.IsAround [] s) → texts.WellTyped e → TellsEntry e texts none

/-- The date of a row is neither blank nor a date. -/
def Texts.Damaged (texts : Texts) : Prop :=
  ∃ s ∈ texts .date, Text.trim s ≠ "" ∧ ∀ day, Date.ofCompact (Text.trim s) ≠ .ok day

/-- The texts of a row that cannot be read: its date is damaged, or a text that stands for a number is
not taken as one. -/
def Texts.Unreadable (e : Endpoint) (texts : Texts) : Prop :=
  texts.Damaged ∨ ¬ texts.WellTyped e

variable {e : Endpoint} {texts : Texts} {r : PriceRow} {b : Bar} {entry : Option Bar}

theorem Tells.isNumber {t : Option String} {d : Decimal} (h : Tells t d) : ∀ s ∈ t, IsNumber s := by
  intro s hs
  have hread := h.readText_eq
  rw [Option.mem_def.mp hs] at hread
  exact exists_readNumber_iff.mp ⟨d, hread⟩

theorem Texts.TellsBar.wellTyped (h : texts.TellsBar b) (e : Endpoint) : texts.WellTyped e := by
  intro p hdate _
  cases p with
  | date => exact absurd rfl hdate
  | openPrice => exact h.openPrice.isNumber
  | high => exact h.high.isNumber
  | low => exact h.low.isNumber
  | close => exact h.close.isNumber
  | volume => exact h.volume.isNumber
  | tradingValue => exact h.tradingValue.isNumber

theorem Texts.TellsEntry.wellTyped (h : texts.TellsEntry e entry) : texts.WellTyped e := by
  cases h with
  | bar hb => exact hb.wellTyped e
  | padding _ htyped => exact htyped

/-- A row holds what its texts say of each part, and no more than the address has names for. -/
def Texts.HeldBy (e : Endpoint) (texts : Texts) (r : PriceRow) : Prop :=
  ∀ p : Part, p.Holds (if p.nameAt e = none then none else texts p) r

end PriceRow

/-- The bar as an address sends it: overseas indices have no traded value. -/
def Bar.sentBy (e : Endpoint) (b : Bar) : Bar :=
  if e = .overseasIndex then { b with tradingValue := .zero } else b

namespace PriceRow

variable {e : Endpoint} {texts : Texts} {r : PriceRow} {b : Bar} {entry : Option Bar}

theorem Texts.HeldBy.date_eq (h : texts.HeldBy e r) : r.date = (texts .date).getD "" := h .date

/-- A part that is told as a number holds that number. -/
theorem Part.eq_of_holds {t : Option String} {d d' : Decimal} (htells : Tells t d)
    (h : readText t = .ok d') : d' = d := by
  rw [htells.readText_eq] at h
  exact (Except.ok.inj h).symm

theorem Texts.TellsBar.bar_eq (h : texts.TellsBar b) (hr : texts.HeldBy e r) :
    r.bar b.tradeDate = b.sentBy e := by
  have hvalue : r.tradingValue = (b.sentBy e).tradingValue := by
    have hheld := hr .tradingValue
    cases e with
    | overseasIndex => exact Part.eq_of_holds .leftOut hheld
    | _ => exact Part.eq_of_holds h.tradingValue hheld
  have hothers : b.sentBy e = { b with tradingValue := (b.sentBy e).tradingValue } := by
    cases e <;> rfl
  rw [hothers, ← hvalue, bar, Part.eq_of_holds h.openPrice (hr .openPrice),
    Part.eq_of_holds h.high (hr .high), Part.eq_of_holds h.low (hr .low),
    Part.eq_of_holds h.close (hr .close), Part.eq_of_holds h.volume (hr .volume)]

/-- **A row gives the bar that its texts tell of**, or none. -/
theorem Texts.TellsEntry.toBar?_eq (h : texts.TellsEntry e entry) (hr : texts.HeldBy e r) :
    r.toBar? = .ok (entry.map (Bar.sentBy e)) := by
  unfold toBar?
  dsimp only
  rw [hr.date_eq]
  cases h with
  | @bar b hb =>
      obtain ⟨s, hs, haround⟩ := hb.date
      have hdigits := Date.all_isDigit_compact hb.year
      have htrim := haround.trim_eq fun c hc => Text.isBlank_of_isDigit (hdigits c hc)
      rw [String.ofList_toList] at htrim
      have hne : b.tradeDate.compact ≠ "" := by
        intro hempty
        have hread := Date.ofCompact_compact hb.year
        rw [hempty] at hread
        cases hread
      rw [hs, Option.getD_some, htrim, if_neg hne, Date.ofCompact_compact hb.year]
      dsimp only
      rw [hb.bar_eq hr]
      rfl
  | padding hdate _ =>
      have htrim : Text.trim ((texts .date).getD "") = "" := by
        cases hs : texts .date with
        | none => rfl
        | some s => exact (hdate s hs).trim_eq (by simp)
      rw [if_pos htrim]
      rfl

/-- Rows that tell of bars give these bars, in order. -/
theorem bars_of_tellsEntry {rows : List Texts} {entries : List (Option Bar)} {rs : List PriceRow}
    (hentries : List.Forall₂ (Texts.TellsEntry e) rows entries)
    (hheld : List.Forall₂ (Texts.HeldBy e) rows rs) :
    bars rs = .ok (entries.reduceOption.map (Bar.sentBy e)) := by
  suffices h : List.Forall₂ (fun r entry => toBar? r = .ok entry) rs
      (entries.map (Option.map (Bar.sentBy e))) by
    rw [bars_eq_ok h, List.reduceOption_map]
  rw [List.forall₂_map_right_iff]
  induction hentries generalizing rs with
  | nil =>
      cases hheld
      exact .nil
  | cons hentry _ ih =>
      cases hheld with
      | cons hr hrest => exact .cons (hentry.toBar?_eq hr) (ih hrest)

/-- One damaged date spoils the page, so that no bar is taken for one of another day. -/
theorem bars_of_damaged {rows : List Texts} {rs : List PriceRow}
    (hheld : List.Forall₂ (Texts.HeldBy e) rows rs) (hmem : texts ∈ rows) (hbad : texts.Damaged) :
    ∃ reason, bars rs = .error (.parse reason) := by
  obtain ⟨s, hs, hblank, hday⟩ := hbad
  obtain ⟨n, hn, rfl⟩ := List.getElem_of_mem hmem
  have hn' : n < rs.length := hheld.length_eq ▸ hn
  have hheld_date := Texts.HeldBy.date_eq (hheld.get hn hn')
  have hdate : rs[n].date = s := hheld_date.trans (congrArg (Option.getD · "") hs)
  have hrefused : ∃ problem, rs[n].toBar? = .error problem := by
    unfold toBar?
    dsimp only
    rw [hdate, if_neg hblank]
    cases hread : Date.ofCompact (Text.trim s) with
    | ok day => exact absurd hread (hday day)
    | error problem => exact ⟨_, rfl⟩
  obtain ⟨problem, hproblem⟩ := hrefused
  exact bars_eq_error (List.getElem_mem hn') hproblem

end PriceRow

/-! ### Envelopes -/

namespace Envelope

open PriceRow (Texts)

/-- An object with the fields of an envelope, in any order and among any other fields. -/
structure IsWritten (e : Endpoint) (result : String) (code message : Option String)
    (rows : List Texts) (entries : List (Option String × Json)) : Prop where
  names : ∀ f ∈ entries, f.1.isSome
  result : valuesOf "rt_cd" entries = [.str result]
  code : valuesOf "msg_cd" entries = code.toList.map .str
  message : valuesOf "msg1" entries = message.toList.map .str
  rows : ∃ objects, List.Forall₂ (Texts.IsWritten e) rows objects ∧
    valuesOf "output2" entries = [.list (objects.map .object)]

/-- The field of the result code. -/
def resultField : Decoder.Field Envelope :=
  Decoder.required "rt_cd" Decoder.string fun x v => { x with result := v }

/-- The field of the code of a refusal. -/
def codeField : Decoder.Field Envelope :=
  Decoder.defaulted "msg_cd" Decoder.string fun x v => { x with code := v }

/-- The field of the message of a refusal. -/
def messageField : Decoder.Field Envelope :=
  Decoder.defaulted "msg1" Decoder.string fun x v => { x with message := v }

/-- The field of the rows. -/
def rowsField (e : Endpoint) : Decoder.Field Envelope :=
  Decoder.nullable "output2" (Decoder.list (PriceRow.decoder e)) fun x v => { x with rows := v }

/-- The fields of an envelope. -/
def fields (e : Endpoint) : List (Decoder.Field Envelope) :=
  [resultField, codeField, messageField, rowsField e]

theorem decoder_eq (e : Endpoint) :
    decoder e = Decoder.record "KisEnvelope" (fields e) ⟨"", "", "", none⟩ := rfl

variable {e : Endpoint} {result : String} {code message : Option String} {rows : List Texts}
  {entries : List (Option String × Json)} {x x' : Envelope} {v : Json}

/-- A field does not touch what other names stand for. -/
theorem read_frame {g : Decoder.Field Envelope} (hg : g ∈ fields e)
    (hread : g.read .text v x = .ok x') :
    (g.name ≠ "rt_cd" → x'.result = x.result) ∧ (g.name ≠ "msg_cd" → x'.code = x.code) ∧
      (g.name ≠ "msg1" → x'.message = x.message) ∧ (g.name ≠ "output2" → x'.rows = x.rows) := by
  simp only [fields, List.mem_cons, List.not_mem_nil, or_false] at hg
  rcases hg with rfl | rfl | rfl | rfl
  · obtain ⟨a, -, rfl⟩ := Decoder.field_read_eq_ok.mp hread
    exact ⟨fun hne => absurd rfl hne, fun _ => rfl, fun _ => rfl, fun _ => rfl⟩
  · obtain ⟨a, -, rfl⟩ := Decoder.field_read_eq_ok.mp hread
    exact ⟨fun _ => rfl, fun hne => absurd rfl hne, fun _ => rfl, fun _ => rfl⟩
  · obtain ⟨a, -, rfl⟩ := Decoder.field_read_eq_ok.mp hread
    exact ⟨fun _ => rfl, fun _ => rfl, fun hne => absurd rfl hne, fun _ => rfl⟩
  · obtain ⟨a, -, rfl⟩ := Decoder.field_read_eq_ok.mp hread
    exact ⟨fun _ => rfl, fun _ => rfl, fun _ => rfl, fun hne => absurd rfl hne⟩

/-- Objects that hold the texts of rows are read as rows that hold them. -/
theorem rows_held {objects : List (List (Option String × Json))} {rs : List PriceRow}
    (hwritten : List.Forall₂ (Texts.IsWritten e) rows objects)
    (hread : List.Forall₂ (fun v r => PriceRow.decoder e .text v = .ok r)
      (objects.map .object) rs) :
    List.Forall₂ (fun texts r => texts.WellTyped e ∧ texts.HeldBy e r) rows rs := by
  rw [List.forall₂_map_left_iff] at hread
  induction hwritten generalizing rs with
  | nil =>
      cases hread
      exact .nil
  | cons hfirst _ ih =>
      cases hread with
      | cons hr hrest =>
          exact .cons ⟨PriceRow.wellTyped_of_decoder hfirst hr, PriceRow.holds_of_decoder hfirst hr⟩
            (ih hrest)

/-- Objects that hold the texts of rows are read if the numbers of the rows can be read. -/
theorem rows_isOk {objects : List (List (Option String × Json))}
    (hwritten : List.Forall₂ (Texts.IsWritten e) rows objects)
    (htyped : ∀ texts ∈ rows, texts.WellTyped e) :
    ∃ rs, List.Forall₂ (fun v r => PriceRow.decoder e .text v = .ok r) (objects.map .object) rs := by
  induction hwritten with
  | nil => exact ⟨[], .nil⟩
  | cons hfirst _ ih =>
      obtain ⟨r, hr⟩ := PriceRow.decoder_isOk hfirst (htyped _ List.mem_cons_self)
      obtain ⟨rs, hrs⟩ := ih fun texts hmem => htyped texts (List.mem_cons_of_mem _ hmem)
      exact ⟨r :: rs, .cons hr hrs⟩

/-- **An envelope of rows is read if the numbers of its rows can be read.** -/
theorem decoder_isOk (h : IsWritten e result code message rows entries)
    (htyped : ∀ texts ∈ rows, texts.WellTyped e) :
    ∃ x, decoder e .text (.object entries) = .ok x := by
  obtain ⟨objects, hwritten, hrows⟩ := h.rows
  obtain ⟨rs, hrs⟩ := rows_isOk hwritten htyped
  have hlist : Decoder.option (Decoder.list (PriceRow.decoder e)) .text
      (.list (objects.map .object)) = .ok (some rs) := by
    change (Decoder.list _ .text _).map some = _
    rw [Decoder.list_eq_ok.mpr hrs]
    rfl
  have hstring {t : Option String} {v : Json} (hv : v ∈ t.toList.map Json.str) :
      ∃ s, Decoder.string .text v = .ok s := by
    obtain ⟨s, -, rfl⟩ := List.mem_map.mp hv
    exact ⟨s, rfl⟩
  have hfield {f : Decoder.Field Envelope} (hf : f ∈ fields e) :
      f = resultField ∨ f = codeField ∨ f = messageField ∨ f = rowsField e := by
    simpa [fields] using hf
  rw [decoder_eq]
  refine Decoder.record_isOk h.names ?_ ?_ ?_
  · intro f hf
    have hlength (t : Option String) : (t.toList.map Json.str).length ≤ 1 := by
      cases t <;> simp
    rcases hfield hf with rfl | rfl | rfl | rfl
    · exact (congrArg List.length h.result).le
    · exact (congrArg List.length h.code).le.trans (hlength code)
    · exact (congrArg List.length h.message).le.trans (hlength message)
    · exact (congrArg List.length hrows).le
  · intro f hf v hv x
    rcases hfield hf with rfl | rfl | rfl | rfl
    · obtain ⟨s, hs⟩ := hstring (t := some result) (h.result ▸ hv)
      exact ⟨_, Decoder.field_read_eq_ok.mpr ⟨s, hs, rfl⟩⟩
    · obtain ⟨s, hs⟩ := hstring (h.code ▸ hv)
      exact ⟨_, Decoder.field_read_eq_ok.mpr ⟨s, hs, rfl⟩⟩
    · obtain ⟨s, hs⟩ := hstring (h.message ▸ hv)
      exact ⟨_, Decoder.field_read_eq_ok.mpr ⟨s, hs, rfl⟩⟩
    · obtain rfl := List.mem_singleton.mp (hrows ▸ hv)
      exact ⟨_, Decoder.field_read_eq_ok.mpr ⟨some rs, hlist, rfl⟩⟩
  · intro f hf hforbidden
    rcases hfield hf with rfl | rfl | rfl | rfl
    · exact h.result ▸ List.cons_ne_nil _ _
    all_goals cases hforbidden

/-- A part that is a text is what its field says, and empty without it. -/
theorem text_of_decoder {f : Decoder.Field Envelope} {get : Envelope → String} {t : Option String}
    (hok : decoder e .text (.object entries) = .ok x)
    (hf : (fields e).find? (fun g => g.name == f.name) = some f)
    (hvalues : valuesOf f.name entries = t.toList.map .str)
    (hothers : ∀ g ∈ fields e, g.name ≠ f.name → ∀ v x x', g.read .text v x = .ok x' → get x' = get x)
    (hsets : ∀ s x x', f.read .text (.str s) x = .ok x' → get x' = s)
    (hstart : get ⟨"", "", "", none⟩ = "") : get x = t.getD "" := by
  rw [decoder_eq] at hok
  refine Decoder.record_field (P := fun x => get x = t.getD "") hok hf ?_ ?_ ?_
  · intro g hg hne v x x' hread hx
    exact (hothers g hg hne v x x' hread).trans hx
  · intro v hv x x' hread
    rw [hvalues] at hv
    obtain ⟨s, hs, rfl⟩ := List.mem_map.mp hv
    rw [Option.mem_toList.mp hs]
    exact hsets s x x' hread
  · intro hnil
    rw [hvalues] at hnil
    rw [Option.toList_eq_nil_iff.mp (List.map_eq_nil_iff.mp hnil)]
    exact hstart

/-- **An envelope that is read holds what its fields say**, and its rows could be read. -/
theorem contents_of_decoder (h : IsWritten e result code message rows entries)
    (hok : decoder e .text (.object entries) = .ok x) :
    x.result = result ∧ x.code = code.getD "" ∧ x.message = message.getD "" ∧ ∃ rs,
      x.rows = some rs ∧ List.Forall₂ (fun texts r => texts.WellTyped e ∧ texts.HeldBy e r) rows rs := by
  refine ⟨?_, ?_, ?_, ?_⟩
  · refine text_of_decoder (f := resultField) (t := some result) hok rfl h.result
      (fun g hg hne v x x' hread => (read_frame hg hread).1 hne) ?_ rfl
    intro s x x' hread
    cases hread
    rfl
  · refine text_of_decoder (f := codeField) hok rfl h.code
      (fun g hg hne v x x' hread => (read_frame hg hread).2.1 hne) ?_ rfl
    intro s x x' hread
    cases hread
    rfl
  · refine text_of_decoder (f := messageField) hok rfl h.message
      (fun g hg hne v x x' hread => (read_frame hg hread).2.2.1 hne) ?_ rfl
    intro s x x' hread
    cases hread
    rfl
  · obtain ⟨objects, hwritten, hrows⟩ := h.rows
    rw [decoder_eq] at hok
    refine Decoder.record_field (f := rowsField e) (P := fun x => ∃ rs, x.rows = some rs ∧
      List.Forall₂ (fun texts r => texts.WellTyped e ∧ texts.HeldBy e r) rows rs) hok rfl ?_ ?_ ?_
    · rintro g hg hne v x x' hread ⟨rs, hrs, hheld⟩
      exact ⟨rs, ((read_frame hg hread).2.2.2 hne).trans hrs, hheld⟩
    · intro v hv x x' hread
      obtain ⟨value, hvalue, rfl⟩ := Decoder.field_read_eq_ok.mp hread
      obtain rfl := List.mem_singleton.mp (hrows ▸ hv)
      change (Decoder.list _ .text _).map some = _ at hvalue
      cases hlist : Decoder.list (PriceRow.decoder e) .text (.list (objects.map .object)) with
      | error problem =>
          rw [hlist] at hvalue
          cases hvalue
      | ok rs =>
          rw [hlist] at hvalue
          cases hvalue
          exact ⟨rs, rfl, rows_held hwritten (Decoder.list_eq_ok.mp hlist)⟩
    · intro hnil
      rw [show (rowsField e).name = "output2" from rfl, hrows] at hnil
      cases hnil

end Envelope

/-! ### Pages -/

/-- The text of a page: an envelope with rows that hold the texts, written in any way. -/
def Envelope.IsPage (e : Endpoint) (result : String) (code message : Option String)
    (rows : List PriceRow.Texts) (body : String) : Prop :=
  ∃ entries, IsWritten e result code message rows entries ∧ Json.Writes (.object entries) body

namespace Envelope.IsPage

open PriceRow (Texts)

variable {e : Endpoint} {result : String} {code message : Option String} {rows : List Texts}
  {body : String}

/-- The rows of a page whose numbers can be read. -/
theorem ofPage_wellTyped (h : IsPage e result code message rows body)
    (htyped : ∀ texts ∈ rows, texts.WellTyped e) : ∃ rs,
      List.Forall₂ (fun texts r => texts.HeldBy e r) rows rs ∧ PriceRow.ofPage e body =
        if result = "0" then .ok rs else .error (.api (code.getD "") (message.getD "")) := by
  obtain ⟨entries, hwritten, hbody⟩ := h
  obtain ⟨x, hx⟩ := decoder_isOk hwritten htyped
  obtain ⟨hresult, hcode, hmessage, rs, hrs, hheld⟩ := contents_of_decoder hwritten hx
  have htext : Decoder.ofText (decoder e) body = .ok x := by
    rw [Decoder.ofText, Json.ofText?_of_writes hbody]
    dsimp only
    rw [hx]
  refine ⟨rs, (List.forall₂_and_left _ _ |>.mp hheld).2, ?_⟩
  rw [PriceRow.ofPage, htext]
  dsimp only
  rw [contents, hresult, hcode, hmessage, hrs]
  rfl

/-- A page with a number that cannot be read. -/
theorem ofPage_not_wellTyped (h : IsPage e result code message rows body)
    (hbad : ∃ texts ∈ rows, ¬ texts.WellTyped e) :
    ∃ reason, PriceRow.ofPage e body = .error (.parse reason) := by
  obtain ⟨entries, hwritten, hbody⟩ := h
  cases hx : decoder e .text (.object entries) with
  | ok x =>
      obtain ⟨texts, hmem, hnot⟩ := hbad
      obtain ⟨-, -, -, rs, -, hheld⟩ := contents_of_decoder hwritten hx
      exact absurd ((List.forall₂_and_left _ _ |>.mp hheld).1 texts hmem) hnot
  | error problem =>
      obtain ⟨problem', htext⟩ : ∃ problem', Decoder.ofText (decoder e) body = .error problem' := by
        rw [Decoder.ofText, Json.ofText?_of_writes hbody]
        dsimp only
        rw [hx]
        exact ⟨_, rfl⟩
      rw [PriceRow.ofPage, htext]
      exact ⟨_, rfl⟩

end Envelope.IsPage

/-! ### Every list of rows makes a page -/

/-- A text under a name, if there is one. -/
def Json.textField (name : String) (t : Option String) : List (Option String × Json) :=
  t.toList.map fun s => (some name, .str s)

theorem Json.valuesOf_textField (name name' : String) (t : Option String) :
    valuesOf name (textField name' t) = if name' = name then t.toList.map .str else [] := by
  cases t with
  | none => simp [textField]
  | some s =>
      by_cases h : name' = name
      · subst h
        simp [textField]
      · simp [textField, valuesOf_cons_of_ne h, h]

theorem Json.exact_of_mem_textField {name : String} {t : Option String} :
    ∀ f ∈ textField name t, f.1.isSome ∧ f.2.IsExact := by
  intro f hf
  obtain ⟨s, -, rfl⟩ := List.mem_map.mp hf
  exact ⟨rfl, rfl⟩

namespace PriceRow

/-- The texts under their names, in the order of the address. -/
def Texts.entries (e : Endpoint) (texts : Texts) : List (Option String × Json) :=
  (layout e).flatMap fun (p, name) => Json.textField name (texts p)

theorem Texts.exact_of_mem_entries {e : Endpoint} {texts : Texts} :
    ∀ f ∈ texts.entries e, f.1.isSome ∧ f.2.IsExact := by
  intro f hf
  obtain ⟨⟨p, name⟩, -, hmem⟩ := List.mem_flatMap.mp hf
  exact Json.exact_of_mem_textField f hmem

theorem Texts.isWritten_entries (e : Endpoint) (texts : Texts) :
    texts.IsWritten e (texts.entries e) := by
  refine ⟨fun f hf => (exact_of_mem_entries f hf).1, fun p name hname => ?_⟩
  cases e <;> cases p <;> cases hname <;>
    simp [entries, layout, Json.valuesOf_append, Json.valuesOf_textField]

end PriceRow

namespace Envelope

variable {e : Endpoint} {result : String} {code message : Option String}
  {rows : List PriceRow.Texts}

/-- The rows of a page, as JSON. -/
def rowsJson (e : Endpoint) (rows : List PriceRow.Texts) : Json :=
  .list (rows.map fun texts => .object (texts.entries e))

/-- The fields of an envelope around rows. -/
def entries (e : Endpoint) (result : String) (code message : Option String)
    (rows : List PriceRow.Texts) : List (Option String × Json) :=
  Json.textField "rt_cd" (some result) ++ (Json.textField "msg_cd" code ++
    (Json.textField "msg1" message ++ [(some "output2", rowsJson e rows)]))

/-- The text of an envelope around rows. -/
def body (e : Endpoint) (result : String) (code message : Option String)
    (rows : List PriceRow.Texts) : String :=
  (Json.object (entries e result code message rows)).write

theorem isExact_rowsJson (e : Endpoint) (rows : List PriceRow.Texts) :
    (rowsJson e rows).IsExact := by
  refine Json.areExact_iff.mpr fun v hv => ?_
  obtain ⟨texts, -, rfl⟩ := List.mem_map.mp hv
  exact Json.fieldsExact_iff.mpr PriceRow.Texts.exact_of_mem_entries

theorem exact_of_mem_entries :
    ∀ f ∈ entries e result code message rows, f.1.isSome ∧ f.2.IsExact := by
  intro f hf
  simp only [entries, List.mem_append, List.mem_singleton] at hf
  rcases hf with hf | hf | hf | rfl
  · exact Json.exact_of_mem_textField f hf
  · exact Json.exact_of_mem_textField f hf
  · exact Json.exact_of_mem_textField f hf
  · exact ⟨rfl, isExact_rowsJson e rows⟩

/-- **Every list of rows is that of a page**, under every result. -/
theorem isPage_body : IsPage e result code message rows (body e result code message rows) := by
  have hforall : List.Forall₂ (PriceRow.Texts.IsWritten e) rows
      (rows.map fun texts => texts.entries e) := by
    rw [List.forall₂_map_right_iff, List.forall₂_same]
    exact fun texts _ => texts.isWritten_entries e
  have hexact : (Json.object (entries e result code message rows)).IsExact :=
    Json.fieldsExact_iff.mpr exact_of_mem_entries
  refine ⟨_, ⟨fun f hf => (exact_of_mem_entries f hf).1, ?_, ?_, ?_, _, hforall, ?_⟩,
    (Json.written_write _ hexact).toElement⟩
  · simp [entries, Json.valuesOf_append, Json.valuesOf_textField, Json.valuesOf_cons_of_ne]
  · simp [entries, Json.valuesOf_append, Json.valuesOf_textField, Json.valuesOf_cons_of_ne]
  · simp [entries, Json.valuesOf_append, Json.valuesOf_textField, Json.valuesOf_cons_of_ne]
  · simp [entries, Json.valuesOf_append, Json.valuesOf_textField, rowsJson]

end Envelope

/-- **A page is decoded faithfully.** A success whose rows tell of bars, or of no day, gives exactly these
bars, in order and each value in its own place; a success with a row that cannot be read is an error; and
a refusal gives its code and its message. -/
theorem Bar.ofPage_of_isPage {e : Endpoint} {result : String} {code message : Option String}
    {rows : List PriceRow.Texts} {body : String}
    (h : Envelope.IsPage e result code message rows body) :
    (∀ entries, result = "0" → List.Forall₂ (PriceRow.Texts.TellsEntry e) rows entries →
      Bar.ofPage e body = .ok (entries.reduceOption.map (Bar.sentBy e))) ∧
    (result = "0" → (∃ texts ∈ rows, texts.Unreadable e) →
      ∃ reason, Bar.ofPage e body = .error (.parse reason)) ∧
    (result ≠ "0" → (∀ texts ∈ rows, texts.WellTyped e) →
      Bar.ofPage e body = .error (.api (code.getD "") (message.getD ""))) := by
  refine ⟨?_, ?_, ?_⟩
  · rintro entries rfl hentries
    have htyped := hentries.imp fun _ _ hentry => And.intro hentry.wellTyped hentry
    obtain ⟨rs, hheld, hpage⟩ := h.ofPage_wellTyped (List.forall₂_and_left _ _ |>.mp htyped).1
    rw [Bar.ofPage, hpage, if_pos rfl]
    exact PriceRow.bars_of_tellsEntry hentries hheld
  · rintro rfl ⟨texts, hmem, hbad⟩
    by_cases htyped : ∀ texts ∈ rows, texts.WellTyped e
    · obtain ⟨rs, hheld, hpage⟩ := h.ofPage_wellTyped htyped
      rw [Bar.ofPage, hpage, if_pos rfl]
      exact PriceRow.bars_of_damaged hheld hmem (hbad.resolve_right fun hnot => hnot (htyped texts hmem))
    · simp only [not_forall] at htyped
      obtain ⟨texts, hmem, hnot⟩ := htyped
      obtain ⟨reason, hpage⟩ := h.ofPage_not_wellTyped ⟨texts, hmem, hnot⟩
      rw [Bar.ofPage, hpage]
      exact ⟨reason, rfl⟩
  · intro hresult htyped
    obtain ⟨rs, -, hpage⟩ := h.ofPage_wellTyped htyped
    rw [Bar.ofPage, hpage, if_neg hresult]
    rfl

/-! Bars of a share, sent on a page. -/

namespace SharePage

/-- A bar of a day. -/
def bar : Bar where
  tradeDate := ⟨19800, by decide⟩
  openPrice := { negative := false, mantissa := 150, scale := 2 }
  high := .zero
  low := .zero
  close := { negative := false, mantissa := 75, scale := 1 }
  volume := .zero
  tradingValue := .zero

/-- The texts of the bar: blanks around its date, zeros written in three ways. -/
def texts : PriceRow.Texts
  | .date => some " 20240318\t"
  | .openPrice => some "1.50"
  | .high => some ""
  | .low => some "-"
  | .close => some " +7.5"
  | _ => none

/-- The texts of a row of no day. -/
def padding : PriceRow.Texts
  | .date => some " "
  | _ => none

/-- The texts of a row with a number that is none. -/
def damaged : PriceRow.Texts
  | .close => some "n/a"
  | _ => none

/-- The texts of a row of a day that the calendar does not have. -/
def misdated : PriceRow.Texts
  | .date => some "20240230"
  | _ => none

theorem toList_compact : bar.tradeDate.compact.toList = ['2', '0', '2', '4', '0', '3', '1', '8'] := by
  rw [Date.toList_compact (by decide)]
  decide +kernel

theorem isPlain_open : bar.openPrice.IsPlain ([] ++ (['1'] ++ '.' :: ['5', '0'])) :=
  .point (.inl rfl) (List.all_eq_true.mp rfl) (List.cons_ne_nil _ _) ⟨by decide, rfl, rfl⟩

theorem isPlain_close : bar.close.IsPlain (['+'] ++ (['7'] ++ '.' :: ['5'])) :=
  .point (.inr (.inl rfl)) (List.all_eq_true.mp rfl) (List.cons_ne_nil _ _) ⟨by decide, rfl, rfl⟩

/-- A text is around characters if it is these characters between blanks. -/
theorem isAround_of_eq {core : List Char} {s : String} (front back : List Char)
    (hfront : front.all Text.isBlank) (hback : back.all Text.isBlank)
    (hs : s.toList = front ++ (core ++ back)) :
    Text.IsAround core s :=
  ⟨front, back, List.all_eq_true.mp hfront, List.all_eq_true.mp hback, hs⟩

theorem tellsBar_texts : texts.TellsBar bar where
  year := by decide
  date := ⟨_, rfl, isAround_of_eq [' '] ['\t'] rfl rfl (by rw [toList_compact]; rfl)⟩
  openPrice := .plain isPlain_open (isAround_of_eq [] [] rfl rfl rfl)
  high := .blank (isAround_of_eq [] [] rfl rfl rfl)
  low := .dash (isAround_of_eq [] [] rfl rfl rfl)
  close := .plain isPlain_close (isAround_of_eq [' '] [] rfl rfl rfl)
  volume := .leftOut
  tradingValue := .leftOut

theorem unreadable_damaged : damaged.Unreadable .overseasStock := by
  refine .inr fun htyped => ?_
  have hnumber := htyped .close (by decide) (by decide) "n/a" rfl
  have htrim : Text.trim "n/a" = "n/a" := rfl
  rw [PriceRow.IsNumber, htrim] at hnumber
  obtain h | h | ⟨d, h⟩ := hnumber
  · exact absurd h (by decide)
  · exact absurd h (by decide)
  · cases h

theorem unreadable_misdated : misdated.Unreadable .overseasStock := by
  have hnone : (Date.ofCompact (Text.trim "20240230")).toOption = none := by decide +kernel
  refine .inl ⟨"20240230", rfl, by decide +kernel, fun day hday => ?_⟩
  rw [hday] at hnone
  cases hnone

/-- The page of the bar and of a row of no day gives the bar; a row with a damaged number or with a day
that is none spoils it; and a refusal gives its code and message. -/
theorem ofPage_sharePage :
    Bar.ofPage .overseasStock (Envelope.body .overseasStock "0" none none [texts, padding]) =
        .ok [bar] ∧
      (∃ reason, Bar.ofPage .overseasStock
        (Envelope.body .overseasStock "0" none none [texts, damaged]) = .error (.parse reason)) ∧
      (∃ reason, Bar.ofPage .overseasStock
        (Envelope.body .overseasStock "0" none none [misdated, texts]) = .error (.parse reason)) ∧
      Bar.ofPage .overseasStock
          (Envelope.body .overseasStock "1" (some "EGW00123") (some "expired") [texts]) =
        .error (.api "EGW00123" "expired") := by
  refine ⟨?_, ?_, ?_, ?_⟩
  · have htexts : texts.TellsEntry .overseasStock (some bar) := .bar tellsBar_texts
    have hpadding : padding.TellsEntry .overseasStock none := by
      refine .padding (fun s hs => ?_) fun p hdate _ s hs => ?_
      · cases hs
        exact isAround_of_eq [' '] [] rfl rfl rfl
      · cases p <;> first | exact absurd rfl hdate | cases hs
    exact (Bar.ofPage_of_isPage Envelope.isPage_body).1 [some bar, none] rfl
      (.cons htexts (.cons hpadding .nil))
  · exact (Bar.ofPage_of_isPage Envelope.isPage_body).2.1 rfl
      ⟨damaged, by simp, unreadable_damaged⟩
  · exact (Bar.ofPage_of_isPage Envelope.isPage_body).2.1 rfl
      ⟨misdated, by simp, unreadable_misdated⟩
  · refine (Bar.ofPage_of_isPage Envelope.isPage_body).2.2 (by decide) fun t ht => ?_
    rw [List.mem_singleton.mp ht]
    exact tellsBar_texts.wellTyped _

end SharePage

end DailyBars
