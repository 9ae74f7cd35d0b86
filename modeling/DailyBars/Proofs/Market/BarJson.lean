import DailyBars.Market.Bar
import DailyBars.Proofs.Calendar.IsoDates
import DailyBars.Proofs.Decimal.Plain
import DailyBars.Proofs.Json.Records
import DailyBars.Proofs.Json.Written

/-!
# Bars are read back from JSON

A bar is written as an object of seven texts, one for each of its parts, and each part is read back
from its own text (`DecodesTo`): the day in whatever year, a decimal with all of its digits. So the
bar is read back from the object, and from the text of the object (`Bar.survives_json`). What is read
as a bar may be spelled in other ways, with numbers or exponents, unknown fields or as a list; written
again it is of this form, and from then on it stays the same.
-/

namespace DailyBars

namespace Decoder

variable {ρ α : Type} {fields : List (Field ρ)} {f : Field ρ} {form : JsonForm} {r r' : ρ}
  {seen : List String} {entries : List (Option String × Json)} {name : String} {v : Json}

/-- A field that was not seen before and can be read is read. -/
theorem readFields_known (hfind : fields.find? (fun g => g.name == name) = some f)
    (hseen : name ∉ seen) (hread : f.read form v r = .ok r') :
    readFields fields form r seen ((some name, v) :: entries) =
      readFields fields form r' (name :: seen) entries := by
  rw [readFields, hfind]
  dsimp only
  rw [if_neg (by simpa using hseen), hread]

/-- A value is read as `a`, in whatever form it comes. -/
def DecodesTo (d : Decoder α) (v : Json) (a : α) : Prop := ∀ form, d form v = .ok a

theorem DecodesTo.read_required {d : Decoder α} {a : α} (h : DecodesTo d v a) (name : String)
    (set : ρ → α → ρ) (form : JsonForm) (r : ρ) :
    (required name d set).read form v r = .ok (set r a) := by
  change (d form v).map (set r) = _
  rw [h form]
  rfl

end Decoder

open Decoder

/-- The text of a date is read as the date. -/
theorem Date.decodesTo_iso (d : Date) : DecodesTo Decoder.date (.str d.iso) d := by
  intro form
  change ((ofIso d.iso).mapError PatternError.message).mapError DecodeError.refused = _
  rw [ofIso_iso]
  rfl

/-- The text of a decimal is read as the decimal. -/
theorem Decimal.decodesTo_text (d : Decimal) : DecodesTo Bar.decimalDecoder (.str d.text) d := by
  intro form
  unfold Bar.decimalDecoder Json.str
  dsimp only
  rw [ofText?_text]

namespace Bar

/-- The object of a bar is read as the bar. -/
theorem decodesTo_toJson (b : Bar) : DecodesTo decoder b.toJson b := by
  intro form
  unfold decoder toJson Json.obj record
  dsimp only [List.map]
  rw [readFields_known rfl (by decide) (b.tradeDate.decodesTo_iso.read_required _ _ form _),
    readFields_known rfl (by decide) (b.openPrice.decodesTo_text.read_required _ _ form _),
    readFields_known rfl (by decide) (b.high.decodesTo_text.read_required _ _ form _),
    readFields_known rfl (by decide) (b.low.decodesTo_text.read_required _ _ form _),
    readFields_known rfl (by decide) (b.close.decodesTo_text.read_required _ _ form _),
    readFields_known rfl (by decide) (b.volume.decodesTo_text.read_required _ _ form _),
    readFields_known rfl (by decide) (b.tradingValue.decodesTo_text.read_required _ _ form _)]
  rfl

/-- The text of the object of a bar is JSON, and denotes the object. -/
theorem ofText?_write_toJson (b : Bar) : Json.ofText? b.toJson.write = some b.toJson := by
  refine Json.ofText?_write ?_
  simp [toJson, Json.obj, Json.str, Json.IsExact, Json.FieldsExact]

/-- A bar that is not changed by being written and read, as a value in whatever form or as a text. -/
structure IsReadBack (b : Bar) : Prop where
  value : DecodesTo decoder b.toJson b
  written : Json.ofText? b.toJson.write = some b.toJson
  text : ofText decoder b.toJson.write = .ok b

theorem isReadBack (b : Bar) : b.IsReadBack := by
  have hwritten := b.ofText?_write_toJson
  refine ⟨b.decodesTo_toJson, hwritten, ?_⟩
  rw [ofText, hwritten]
  dsimp only
  rw [b.decodesTo_toJson .text]

/-- **A bar survives JSON.** Every bar is read back from what is written of it; and whatever was read
as a bar, a value or a text, is read as the same bar once it is written again. -/
theorem survives_json : (∀ b : Bar, b.IsReadBack) ∧
    (∀ (form : JsonForm) (v : Json) (b : Bar), decoder form v = .ok b → b.IsReadBack) ∧
    ∀ (s : String) (b : Bar), ofText decoder s = .ok b →
      ofText decoder b.toJson.write = .ok b :=
  ⟨isReadBack, fun _ _ b _ => b.isReadBack, fun _ b _ => b.isReadBack.text⟩

/-- A decimal with parts that are within their bounds. -/
def decimal (negative : Bool) (mantissa scale : Nat) : Decimal :=
  (Decimal.make? negative mantissa scale).getD .zero

/-- The first day of the calendar, with decimals at the bounds of mantissa and scale. -/
def firstDay : Bar where
  tradeDate := ⟨Date.firstDay, by decide⟩
  openPrice := decimal true Decimal.maxMantissa 28
  high := decimal false Decimal.maxMantissa 0
  low := decimal true 1 28
  close := decimal false 0 28
  volume := decimal false 1000 0
  tradingValue := decimal false 15 1

/-- The bar in another spelling: in another order, with an unknown field, numbers and exponents. -/
def firstDaySpelled : Json := .obj [("source", .null), ("volume", .int 1000),
  ("trading_value", .str "1.5"), ("close", .str "0.0000000000000000000000000000"),
  ("low", .str "-1e-28"), ("high", .str "79228162514264337593543950335"),
  ("open", .str "-7.9228162514264337593543950335"), ("trade_date", .str " -262143 - 1-1")]

theorem survives_json_firstDay : decoder .text firstDaySpelled = .ok firstDay ∧
    ofText decoder firstDaySpelled.write = .ok firstDay ∧ firstDay.IsReadBack ∧
    ofText decoder firstDay.toJson.write = .ok firstDay := by
  have hread : decoder .text firstDaySpelled = .ok firstDay := by decide +kernel
  have htext : ofText decoder firstDaySpelled.write = .ok firstDay := by
    have hwritten : Json.ofText? firstDaySpelled.write = some firstDaySpelled :=
      Json.ofText?_write (by
        simp [firstDaySpelled, Json.obj, Json.str, Json.int, Json.IsExact, Json.FieldsExact,
          Json.IsWord, UInt64.size])
    rw [ofText, hwritten]
    dsimp only
    rw [hread]
  exact ⟨hread, htext, survives_json.2.1 .text firstDaySpelled firstDay hread,
    survives_json.2.2 firstDaySpelled.write firstDay htext⟩

end Bar

end DailyBars
