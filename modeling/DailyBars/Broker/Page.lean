import DailyBars.Broker.Endpoint
import DailyBars.Market.Bar

/-!
# Pages of daily prices

The broker's answer to a request for daily prices: an envelope with a result code and a list of
rows. The four addresses name the fields of a row differently. A row without a trade date is
padding and is dropped; a date that cannot be read makes the whole page unreadable.
-/

namespace DailyBars

/-- A row as it is sent. -/
structure PriceRow where
  date : String
  openPrice : Decimal
  high : Decimal
  low : Decimal
  close : Decimal
  volume : Decimal
  tradingValue : Decimal
  deriving DecidableEq

namespace PriceRow

/-- A row of which nothing was sent. -/
def blank : PriceRow := ⟨"", .zero, .zero, .zero, .zero, .zero, .zero⟩

/-- Reads the text of a number: white space around it does not count, and an empty text or a dash is
zero. -/
def readNumber (s : String) : Except String Decimal :=
  let t := Text.trim s
  if t = "" ∨ t = "-" then .ok .zero
  else
    match Decimal.ofText? t with
    | some d => .ok d
    | none => .error ("Invalid decimal: " ++ t)

/-- Reads a number, which is sent as a text. -/
def number : Decoder Decimal := Decoder.parsed "a string" readNumber

/-- The parts of a row. -/
inductive Part where
  | date | openPrice | high | low | close | volume | tradingValue
  deriving DecidableEq, Repr

/-- The field of a part under its name. -/
def Part.field (p : Part) (name : String) : Decoder.Field PriceRow :=
  match p with
  | .date => Decoder.defaulted name Decoder.string fun r v => { r with date := v }
  | .openPrice => Decoder.defaulted name number fun r v => { r with openPrice := v }
  | .high => Decoder.defaulted name number fun r v => { r with high := v }
  | .low => Decoder.defaulted name number fun r v => { r with low := v }
  | .close => Decoder.defaulted name number fun r v => { r with close := v }
  | .volume => Decoder.defaulted name number fun r v => { r with volume := v }
  | .tradingValue => Decoder.defaulted name number fun r v => { r with tradingValue := v }

/-- The name under which messages know the rows of an address. -/
def title : Endpoint → String
  | .domesticStock => "DomesticStockDailyRow"
  | .domesticIndex => "DomesticIndexDailyRow"
  | .overseasStock => "OverseasStockDailyRow"
  | .overseasIndex => "OverseasIndexDailyRow"

/-- The fields of the rows of an address, in order. Overseas indices have no traded value. -/
def layout : Endpoint → List (Part × String)
  | .domesticStock => [(.date, "stck_bsop_date"), (.openPrice, "stck_oprc"), (.high, "stck_hgpr"),
      (.low, "stck_lwpr"), (.close, "stck_clpr"), (.volume, "acml_vol"),
      (.tradingValue, "acml_tr_pbmn")]
  | .domesticIndex => [(.date, "stck_bsop_date"), (.close, "bstp_nmix_prpr"),
      (.openPrice, "bstp_nmix_oprc"), (.high, "bstp_nmix_hgpr"), (.low, "bstp_nmix_lwpr"),
      (.volume, "acml_vol"), (.tradingValue, "acml_tr_pbmn")]
  | .overseasStock => [(.date, "xymd"), (.close, "clos"), (.openPrice, "open"), (.high, "high"),
      (.low, "low"), (.volume, "tvol"), (.tradingValue, "tamt")]
  | .overseasIndex => [(.date, "stck_bsop_date"), (.close, "ovrs_nmix_prpr"),
      (.openPrice, "ovrs_nmix_oprc"), (.high, "ovrs_nmix_hgpr"), (.low, "ovrs_nmix_lwpr"),
      (.volume, "acml_vol")]

/-- Reads a row; every field may be missing. -/
def decoder (e : Endpoint) : Decoder PriceRow :=
  Decoder.record (title e) ((layout e).map fun (p, name) => p.field name) blank

/-- The bar of the row on a given day. -/
def bar (r : PriceRow) (day : Date) : Bar :=
  ⟨day, r.openPrice, r.high, r.low, r.close, r.volume, r.tradingValue⟩

/-- The bar of the row, or nothing for a row without a trade date. -/
def toBar? (r : PriceRow) : Except BrokerError (Option Bar) :=
  let raw := Text.trim r.date
  if raw = "" then .ok none
  else
    match Date.ofCompact raw with
    | .ok day => .ok (some (r.bar day))
    | .error e => .error (.parse ("Invalid trade date '" ++ raw ++ "': " ++ e.message))

/-- The bars of a list of rows, in order. -/
def bars : List PriceRow → Except BrokerError (List Bar)
  | [] => .ok []
  | r :: rs => do
    let b ← r.toBar?
    let rest ← bars rs
    return b.toList ++ rest

/-- The number of rows without a trade date before the first row that cannot be read. -/
def skipped : List PriceRow → Nat
  | [] => 0
  | r :: rs =>
    match r.toBar? with
    | .error _ => 0
    | .ok none => skipped rs + 1
    | .ok (some _) => skipped rs

end PriceRow

/-- The envelope around the rows of a page. -/
structure Envelope where
  /-- `0` for success. -/
  result : String
  code : String
  message : String
  /-- An answer may come without rows. -/
  rows : Option (List PriceRow)

namespace Envelope

/-- Reads an envelope with the rows of an address. -/
def decoder (e : Endpoint) : Decoder Envelope :=
  Decoder.record "KisEnvelope" [
    Decoder.required "rt_cd" Decoder.string fun x v => { x with result := v },
    Decoder.defaulted "msg_cd" Decoder.string fun x v => { x with code := v },
    Decoder.defaulted "msg1" Decoder.string fun x v => { x with message := v },
    Decoder.nullable "output2" (Decoder.list (PriceRow.decoder e)) fun x v => { x with rows := v }]
    ⟨"", "", "", none⟩

/-- The rows of a successful answer. -/
def contents (x : Envelope) : Except BrokerError (List PriceRow) :=
  if x.result = "0" then .ok (x.rows.getD []) else .error (.api x.code x.message)

end Envelope

/-- The rows in the body of an answer. -/
def PriceRow.ofPage (e : Endpoint) (body : String) : Except BrokerError (List PriceRow) :=
  match Decoder.ofText (Envelope.decoder e) body with
  | .error problem => .error (.parse ("Failed to parse daily price response: " ++ problem.message))
  | .ok envelope => envelope.contents

/-- The bars in the body of an answer. -/
def Bar.ofPage (e : Endpoint) (body : String) : Except BrokerError (List Bar) :=
  PriceRow.ofPage e body >>= PriceRow.bars

end DailyBars
