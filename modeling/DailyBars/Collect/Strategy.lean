import DailyBars.Broker.Endpoint
import DailyBars.Collect.Dedup

/-!
# Strategies

How an instrument of an asset type is collected. The four asset types differ only in the address
that is asked; the walk and the store are the same.
-/

namespace DailyBars

/-- The strategy of an asset type. -/
structure Strategy where
  assetType : AssetType
  pageSize : Nat
  deriving DecidableEq, Repr

namespace Strategy

variable {σ : Type}

/-- The key of an instrument. -/
def keyOf (s : Strategy) (i : Instrument) : Except CollectError InstrumentKey :=
  match i.key? with
  | some k => .ok k
  | none =>
    .error (.invalidInstrument (i.stockCode ++ " (" ++ s.assetType.name ++ "): 거래소 코드가 없습니다"))

/-- The pages of an instrument's prices. -/
def source (s : Strategy) (prices : DailyPrices σ) (key : InstrumentKey) : PageSource σ Bar where
  fetch first last := (prices (.ofAssetType s.assetType) key first last).orElseAs .broker
  dateOf := (·.tradeDate)

/-- Stores one page of an instrument's prices, and gives the number of rows stored. -/
def collect (s : Strategy) (prices : DailyPrices σ) (store : PriceStore σ) (i : Instrument)
    (start last : Date) : Attempt σ CollectError Nat := do
  let key ← Attempt.ofResult (s.keyOf i)
  (s.source prices key).collectPage (store.saveNew key) start last

/-- Stores an instrument's prices from `last` back to `start`, and gives the number of rows
stored. -/
def backfill (s : Strategy) (prices : DailyPrices σ) (store : PriceStore σ) (i : Instrument)
    (start last : Date) : Attempt σ CollectError Nat := do
  let key ← Attempt.ofResult (s.keyOf i)
  let progress ← (s.source prices key).walk (store.saveNew key) s.pageSize start last
  Attempt.ofAct (Act.emit .info .strategy "Backfill finished"
    [("key", .text key.text), ("pages", .nat progress.pages), ("saved", .nat progress.saved)])
  return progress.saved

end Strategy

/-- The strategies by asset type. -/
structure Strategies where
  list : List Strategy
  deriving DecidableEq, Repr

namespace Strategies

/-- The strategies with one more, which replaces the one for its asset type. -/
def insert (r : Strategies) (s : Strategy) : Strategies :=
  ⟨s :: r.list.filter fun t => t.assetType != s.assetType⟩

/-- The strategies for a list of asset types. -/
def ofTypes (types : List AssetType) (pageSize : Nat) : Strategies :=
  types.foldl (fun r t => r.insert ⟨t, pageSize⟩) ⟨[]⟩

/-- The strategies for all asset types. -/
def full (pageSize : Nat) : Strategies := ofTypes AssetType.all pageSize

/-- The strategy for an asset type. -/
def find (r : Strategies) (t : Option AssetType) : Except DispatchError Strategy :=
  match t with
  | none => .error .missingAssetType
  | some t =>
    match r.list.find? (·.assetType == t) with
    | some s => .ok s
    | none => .error (.unsupported t)

end Strategies

end DailyBars
