import DailyBars.Market.Instrument
import DailyBars.Session

/-!
# Rows of the watchlist

The database keeps asset types and exchanges as numbers. A number that means nothing is reported,
and the instrument counts as not classified.
-/

namespace DailyBars

/-- A row of the watchlist. -/
structure WatchlistRecord where
  id : Int
  stockCode : String
  stockName : Option String
  exchange : Option Int
  assetType : Option Int
  backfillCompleted : Bool
  deriving DecidableEq, Repr

namespace WatchlistRecord

variable {σ α : Type}

/-- Reads a number by a table, and reports one that is not in it. -/
def known (read : Int → Option α) (id : Int) (what : String) (code : Option Int) :
    Act σ (Option α) := do
  match code with
  | none => return none
  | some n =>
    let a := read n
    if a.isNone then Act.emit .warn .watchlist what [("id", .int id), ("code", .int n)]
    return a

/-- The instrument of a row. -/
def toInstrument (r : WatchlistRecord) : Act σ Instrument := do
  let assetType ← known AssetType.ofCode? r.id "Unknown asset type code" r.assetType
  let exchange ← known Exchange.ofCode? r.id "Unknown market code" r.exchange
  return ⟨r.id, r.stockCode, r.stockName, exchange, assetType, r.backfillCompleted⟩

/-- The instruments of a list of rows. -/
def toInstruments : List WatchlistRecord → Act σ (List Instrument)
  | [] => return []
  | r :: rs => do
    let i ← r.toInstrument
    return i :: (← toInstruments rs)

end WatchlistRecord

end DailyBars
