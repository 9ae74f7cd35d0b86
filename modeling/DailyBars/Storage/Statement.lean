import DailyBars.Market.Bar
import DailyBars.Storage.Error
import DailyBars.Storage.WatchlistRecord

/-!
# Statements

What is sent to the database and what it answers. Bars are inserted many at a time: an insertion has
one list for each column, and its rows are read across the lists.
-/

namespace DailyBars

/-- The columns of an insertion. -/
structure BarColumns where
  assetTypes : List Int
  stockCodes : List String
  exchangeCodes : List String
  tradeDates : List Date
  opens : List Decimal
  highs : List Decimal
  lows : List Decimal
  closes : List Decimal
  volumes : List Decimal
  tradingValues : List Decimal
  deriving DecidableEq

/-- The exchange code that is stored with a key: domestic instruments have the empty one. -/
def InstrumentKey.storedExchange (k : InstrumentKey) : String := k.exchangeCode.getD ""

/-- The columns of some bars of a key. -/
def BarColumns.ofBars (k : InstrumentKey) (bars : List Bar) : BarColumns where
  assetTypes := bars.map fun _ => k.assetType.code
  stockCodes := bars.map fun _ => k.stockCode
  exchangeCodes := bars.map fun _ => k.storedExchange
  tradeDates := bars.map (·.tradeDate)
  opens := bars.map (·.openPrice)
  highs := bars.map (·.high)
  lows := bars.map (·.low)
  closes := bars.map (·.close)
  volumes := bars.map (·.volume)
  tradingValues := bars.map (·.tradingValue)

/-- A statement to the database. -/
inductive Statement where
  | begin
  | commit
  | rollback
  /-- Asks for the days of a key from the first to the last date. -/
  | existingDates (assetType : Int) (stockCode exchangeCode : String) (first last : Date)
  /-- Inserts the rows whose key and day are not there. -/
  | insert (columns : BarColumns)
  /-- Marks the history of an instrument as complete. -/
  | mark (id : Int)
  /-- Asks for a page of the watchlist. -/
  | findPage (completed : Bool) (after : Option Int) (limit : Int)
  /-- Changes the schema. -/
  | migration (version : Nat) (description : String)
  deriving DecidableEq

/-- What the database answers. -/
inductive StatementResult where
  /-- A number of rows was written. -/
  | written (rows : Nat)
  | dates (days : List Date)
  | records (rows : List WatchlistRecord)
  deriving DecidableEq

namespace StatementResult

/-- The number of rows that were written. -/
def rowsWritten : StatementResult → Nat
  | written n => n
  | _ => 0

/-- The days that were found. -/
def days : StatementResult → List Date
  | dates ds => ds
  | _ => []

/-- The rows of the watchlist that were found. -/
def rows : StatementResult → List WatchlistRecord
  | records rs => rs
  | _ => []

end StatementResult

/-- A connection to a database. -/
abbrev DatabaseLink (σ : Type) := Statement → Attempt σ DatabaseError StatementResult

end DailyBars
