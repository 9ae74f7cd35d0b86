import DailyBars.Decimal.Reader
import DailyBars.Json.Decode

/-!
# Daily bars

The prices of one day. A store holds at most one bar for a key and a day.
-/

namespace DailyBars

/-- The prices, volume and traded value of a day. -/
structure Bar where
  tradeDate : Date
  openPrice : Decimal
  high : Decimal
  low : Decimal
  close : Decimal
  volume : Decimal
  /-- Zero where the broker does not tell it. -/
  tradingValue : Decimal
  deriving DecidableEq

namespace Bar

instance : Inhabited Bar := ⟨⟨default, .zero, .zero, .zero, .zero, .zero, .zero⟩⟩

/-- The bar of a day of which only the closing price is known. -/
def closeOnly (day : Date) (close : Decimal) : Bar :=
  ⟨day, close, close, close, close, .zero, .zero⟩

/-- Reads a decimal: a text in plain or scientific notation, or a number, taken in the fewest digits
that denote it. -/
def decimalDecoder : Decoder Decimal := fun _ v =>
  let expected := "a Decimal type representing a fixed-point number"
  let read (s : String) : Except DecodeError Decimal :=
    match Decimal.ofText? s with
    | some d => .ok d
    | none => .error (.invalidValue (Decoder.found v) expected)
  match v with
  | .text (some s) => read s
  | .number (.int n) => read (Text.integerText n)
  | .number (.float x) => read x.positional
  | v => Decoder.mismatch expected v

/-- Reads a bar from JSON. -/
def decoder : Decoder Bar :=
  Decoder.record "DailyBar" [
    Decoder.required "trade_date" Decoder.date fun b v => { b with tradeDate := v },
    Decoder.required "open" decimalDecoder fun b v => { b with openPrice := v },
    Decoder.required "high" decimalDecoder fun b v => { b with high := v },
    Decoder.required "low" decimalDecoder fun b v => { b with low := v },
    Decoder.required "close" decimalDecoder fun b v => { b with close := v },
    Decoder.required "volume" decimalDecoder fun b v => { b with volume := v },
    Decoder.required "trading_value" decimalDecoder fun b v => { b with tradingValue := v }]
    default

/-- The bar as JSON, decimals as texts. -/
def toJson (b : Bar) : Json :=
  .obj [("trade_date", .str b.tradeDate.iso), ("open", .str b.openPrice.text),
    ("high", .str b.high.text), ("low", .str b.low.text), ("close", .str b.close.text),
    ("volume", .str b.volume.text), ("trading_value", .str b.tradingValue.text)]

end Bar

end DailyBars
