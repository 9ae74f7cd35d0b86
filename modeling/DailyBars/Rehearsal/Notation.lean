import DailyBars.Broker.Account
import DailyBars.Broker.Endpoint
import DailyBars.Collect.Outcome
import DailyBars.Json.Lookup
import DailyBars.Log.Line
import DailyBars.Market.Bar

/-!
# How rehearsals are written

A rehearsal is described by a JSON value and recorded in one. These are the forms of what the
library works with: dates as `YYYY-MM-DD`, keys, instruments and accounts as objects.
-/

namespace DailyBars

/-- Reads a date. -/
def Date.ofJson (j : Json) : Date :=
  match Date.ofIso (j.text?.getD "") with
  | .ok d => d
  | .error _ => default

/-- The date of a field. -/
def Json.dateAt (j : Json) (name : String) : Date := Date.ofJson (j.at! name)

/-- Writes a list of dates. -/
def Date.listToJson (ds : List Date) : Json := .list (ds.map (.str ·.iso))

/-- A list of dates, earliest first. -/
def Date.sorted (ds : List Date) : List Date := ds.mergeSort (· ≤ ·)

/-- Runs of consecutive days in a sorted list, as first day, last day and number. -/
def Date.runs : List Date → List (Date × Date × Nat)
  | [] => []
  | d :: ds =>
    match runs ds with
    | (a, b, n) :: rest =>
      if a.dayNumber = d.dayNumber + 1 then (d, b, n + 1) :: rest
      else (d, d, 1) :: (a, b, n) :: rest
    | [] => [(d, d, 1)]

namespace Endpoint

/-- The name of an address. -/
def name : Endpoint → String
  | domesticStock => "DomesticStock"
  | domesticIndex => "DomesticIndex"
  | overseasStock => "OverseasStock"
  | overseasIndex => "OverseasIndex"

/-- The address with a name. -/
def ofName? (s : String) : Option Endpoint := all.find? (·.name == s)

end Endpoint

/-- The asset type in a field. -/
def Json.assetTypeAt? (j : Json) (name : String) : Option AssetType :=
  (j.textAt? name).bind AssetType.ofName?

/-- Reads a key. -/
def InstrumentKey.ofJson (j : Json) : InstrumentKey :=
  ⟨(j.assetTypeAt? "asset_type").getD .domesticStock, j.textAt "stock_code",
    j.textAt? "exchange_code"⟩

/-- Writes a key. -/
def InstrumentKey.toJson (k : InstrumentKey) : Json :=
  .obj [("asset_type", .str k.assetType.name), ("stock_code", .str k.stockCode),
    ("exchange_code", .str? k.exchangeCode)]

/-- Reads an instrument. -/
def Instrument.ofJson (j : Json) : Instrument :=
  ⟨(j.intAt? "id").getD 0, j.textAt "stock_code", j.textAt? "stock_name",
    (j.textAt? "market_code").bind Exchange.ofLetters?, j.assetTypeAt? "asset_type",
    j.isTrueAt "backfill_completed"⟩

/-- Writes an instrument. -/
def Instrument.toJson (i : Instrument) : Json :=
  .obj [("id", .int i.id), ("stock_code", .str i.stockCode), ("stock_name", .str? i.stockName),
    ("market_code", .str? (i.exchange.map (·.letters))),
    ("asset_type", .str? (i.assetType.map (·.name))),
    ("backfill_completed", .bool i.backfillCompleted)]

/-- Reads an account. -/
def Account.ofJson (j : Json) : Account :=
  ⟨j.textAt "name", j.textAt "account_number", j.textAt "app_key", j.textAt "app_secret"⟩

/-- Writes an account. -/
def Account.toJson (a : Account) : Json :=
  .obj [("name", .str a.name), ("account_number", .str a.number), ("app_key", .str a.appKey),
    ("app_secret", .str a.appSecret)]

/-- Reads a bar: an object, or the date of a bar of price 1. -/
def Bar.ofJson (j : Json) : Bar :=
  match j with
  | .text _ => Bar.closeOnly (Date.ofJson j) ((Decimal.ofNat? 1).getD .zero)
  | j =>
    match Bar.decoder .value j with
    | .ok b => b
    | .error _ => default

/-- Writes a list of bars. -/
def Bar.listToJson (bs : List Bar) : Json := .list (bs.map (·.toJson))

/-- Writes the fields of an event. -/
def LogEvent.fieldsToJson (fields : List (String × LogValue)) : Json :=
  .obj (fields.map fun (k, v) => (k, v.toJson))

/-- Writes an event. -/
def LogEvent.toJson (e : LogEvent) : Json :=
  .obj [("level", .str e.level.name), ("message", .str e.message),
    ("fields", fieldsToJson e.fields)]

/-- Writes a log, less what is only of interest to somebody who looks for a fault. -/
def LogEvent.listToJson (es : List LogEvent) : Json :=
  .list ((es.filter (·.level != .debug)).map (·.toJson))

end DailyBars
