import DailyBars.Broker.Error
import DailyBars.Calendar.Date
import DailyBars.Market.Bar
import DailyBars.Market.Instrument
import DailyBars.Session

/-!
# Where daily prices are asked for

The broker has one address for each asset type, with its own transaction code and parameters. An
address for overseas stocks knows no start date: it answers backwards from a base date.
-/

namespace DailyBars

/-- The addresses of daily prices. -/
inductive Endpoint where
  | domesticStock
  | domesticIndex
  | overseasStock
  | overseasIndex
  deriving DecidableEq, Repr

namespace Endpoint

/-- All addresses. -/
def all : List Endpoint := [domesticStock, domesticIndex, overseasStock, overseasIndex]

/-- The address for an asset type. -/
def ofAssetType : AssetType → Endpoint
  | .domesticStock => domesticStock
  | .domesticIndex => domesticIndex
  | .overseasStock => overseasStock
  | .overseasIndex => overseasIndex

/-- The path on the broker's server. -/
def path : Endpoint → String
  | domesticStock => "/uapi/domestic-stock/v1/quotations/inquire-daily-itemchartprice"
  | domesticIndex => "/uapi/domestic-stock/v1/quotations/inquire-index-daily-price"
  | overseasStock => "/uapi/overseas-price/v1/quotations/dailyprice"
  | overseasIndex => "/uapi/overseas-price/v1/quotations/inquire-daily-chartprice"

/-- The broker's code for the transaction. -/
def transactionCode : Endpoint → String
  | domesticStock => "FHKST03010100"
  | domesticIndex => "FHPUP02120000"
  | overseasStock => "HHDFS76240000"
  | overseasIndex => "FHKST03030100"

/-- Whether a request must name the exchange. -/
def needsExchange : Endpoint → Bool
  | overseasStock | overseasIndex => true
  | domesticStock | domesticIndex => false

/-- What is said when the exchange is missing. -/
def exchangeMissing (key : InstrumentKey) : BrokerError :=
  .invalidRequest (key.text ++ ": 거래소 코드가 필요합니다")

/-- The parameters of an address that takes both ends of the window. -/
def windowQuery (market : String) (code : String) (first last : Date) : List (String × String) :=
  [("FID_COND_MRKT_DIV_CODE", market), ("FID_INPUT_ISCD", code),
    ("FID_INPUT_DATE_1", first.compact), ("FID_INPUT_DATE_2", last.compact),
    ("FID_PERIOD_DIV_CODE", "D")]

/-- The parameters of a request for the days from `first` to `last`. -/
def query (e : Endpoint) (key : InstrumentKey) (first last : Date) :
    Except BrokerError (List (String × String)) :=
  match e with
  | domesticStock =>
    .ok (windowQuery "J" key.stockCode first last ++ [("FID_ORG_ADJ_PRC", "0")])
  | domesticIndex => .ok (windowQuery "U" key.stockCode first last)
  | overseasStock =>
    match key.exchangeCode with
    | none => .error (exchangeMissing key)
    | some exchange =>
      .ok [("EXCD", exchange), ("SYMB", key.stockCode), ("GUBN", "0"), ("BYMD", last.compact),
        ("MODP", "1")]
  | overseasIndex =>
    if key.exchangeCode.isNone then .error (exchangeMissing key)
    else .ok (windowQuery "N" key.stockCode first last)

end Endpoint

/-- Where daily prices come from: a page of the days from the first to the last date, in no
particular order. -/
abbrev DailyPrices (σ : Type) :=
  Endpoint → InstrumentKey → Date → Date → Attempt σ BrokerError (List Bar)

end DailyBars
