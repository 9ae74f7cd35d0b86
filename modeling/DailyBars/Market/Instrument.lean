import DailyBars.Market.AssetType
import DailyBars.Market.Exchange
import DailyBars.Json.Decode

/-!
# Instruments

The entries of the watchlist, and the key under which the prices of an instrument are kept: its
asset type, its code and, for a security overseas, its exchange.
-/

namespace DailyBars

/-- What the prices of an instrument are kept under. -/
structure InstrumentKey where
  assetType : AssetType
  stockCode : String
  exchangeCode : Option String
  deriving DecidableEq, Repr

namespace InstrumentKey

/-- The key as `TYPE:CODE`, or `TYPE:EXCHANGE:CODE` with an exchange. -/
def text (k : InstrumentKey) : String :=
  match k.exchangeCode with
  | some e => k.assetType.name ++ ":" ++ e ++ ":" ++ k.stockCode
  | none => k.assetType.name ++ ":" ++ k.stockCode

end InstrumentKey

/-- An entry of the watchlist. -/
structure Instrument where
  /-- The number by which the watchlist is paged. -/
  id : Int
  stockCode : String
  stockName : Option String
  exchange : Option Exchange
  /-- Unknown for an entry that nobody has classified. -/
  assetType : Option AssetType
  /-- Whether the whole history has been stored; goes from false to true once. -/
  backfillCompleted : Bool
  deriving DecidableEq, Repr

namespace Instrument

/-- The key of the instrument. There is none without an asset type, and none for a security
overseas without an exchange; at home the exchange does not matter. -/
def key? (i : Instrument) : Option InstrumentKey :=
  match i.assetType with
  | none => none
  | some t =>
    if t.needsExchange then i.exchange.map fun m => ⟨t, i.stockCode, some m.letters⟩
    else some ⟨t, i.stockCode, none⟩

/-- Reads an asset type by its name. -/
def assetTypeDecoder : Decoder AssetType :=
  Decoder.variant (AssetType.all.map fun t => (t.name, t))

/-- Reads an exchange by its letters. -/
def exchangeDecoder : Decoder Exchange :=
  Decoder.variant (Exchange.all.map fun m => (m.letters, m))

/-- Reads an instrument from JSON. -/
def decoder : Decoder Instrument :=
  Decoder.record "Instrument" [
    Decoder.required "id" Decoder.int64 fun i v => { i with id := v },
    Decoder.required "stock_code" Decoder.string fun i v => { i with stockCode := v },
    Decoder.nullable "stock_name" Decoder.string fun i v => { i with stockName := v },
    Decoder.nullable "market_code" exchangeDecoder fun i v => { i with exchange := v },
    Decoder.nullable "asset_type" assetTypeDecoder fun i v => { i with assetType := v },
    Decoder.required "backfill_completed" Decoder.bool fun i v => { i with backfillCompleted := v }]
    ⟨0, "", none, none, none, false⟩

end Instrument

end DailyBars
