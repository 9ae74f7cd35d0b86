import DailyBars.Collect.Strategy
import DailyBars.Rehearsal.Failures
import DailyBars.Rehearsal.Notation

/-!
# A broker that knows its history

A broker with a history of days for each code. It answers with the newest days of the window that is
asked for, a page of them at most, in the order that it was set to; every bar closes at 100. It can
be set to fail for a code after a number of good answers.
-/

namespace DailyBars

/-- In which order a page comes. -/
inductive PageOrder where
  | newestFirst
  | oldestFirst
  /-- The second half of the page before the first. -/
  | rotated
  deriving DecidableEq, Repr

/-- Puts a page that has its newest day first into an order. -/
def PageOrder.arrange {α : Type} (o : PageOrder) (page : List α) : List α :=
  match o with
  | newestFirst => page
  | oldestFirst => page.reverse
  | rotated => page.drop (page.length / 2) ++ page.take (page.length / 2)

/-- A request for prices. -/
structure PriceRequest where
  endpoint : Endpoint
  key : InstrumentKey
  first : Date
  last : Date
  deriving DecidableEq

/-- A failure for a code after a number of good answers. -/
structure MarketFault where
  code : String
  after : Nat
  error : BrokerError
  deriving DecidableEq

/-- A broker with a history. -/
structure RehearsalMarket where
  pageSize : Nat
  order : PageOrder
  /-- Whether the window of a request is passed over. -/
  ignoresWindow : Bool
  history : List (String × List Date)
  faults : List MarketFault
  /-- The requests so far, oldest first. -/
  requests : List PriceRequest
  /-- The codes of the requests that got a good answer. -/
  answered : List String

namespace RehearsalMarket

/-- The price that every bar closes at. -/
def closingPrice : Decimal := (Decimal.ofNat? 100).getD .zero

/-- The page that answers a request. -/
def page (m : RehearsalMarket) (r : PriceRequest) : List Bar :=
  let days := ((m.history.lookup r.key.stockCode).getD []).filter fun d =>
    m.ignoresWindow || (decide (r.first ≤ d) && decide (d ≤ r.last))
  let newest := (days.mergeSort fun a b => b ≤ a).take m.pageSize
  (m.order.arrange newest).map fun d => Bar.closeOnly d closingPrice

/-- Answers a request. -/
def answer (m : RehearsalMarket) (r : PriceRequest) :
    Except BrokerError (List Bar) × RehearsalMarket :=
  let m := { m with requests := m.requests ++ [r] }
  let code := r.key.stockCode
  match m.faults.find? fun f => f.code == code && f.after ≤ m.answered.count code with
  | some f => (.error f.error, m)
  | none => (.ok (m.page r), { m with answered := m.answered ++ [code] })

/-- The market in a part of the world. -/
def prices {σ : Type} (p : Part σ RehearsalMarket) : DailyPrices σ := fun endpoint key first last =>
  ExceptT.mk (Act.onPart p fun m => m.answer ⟨endpoint, key, first, last⟩)

/-- Replaces the history of a code. -/
def setHistory (m : RehearsalMarket) (code : String) (days : List Date) : RehearsalMarket :=
  { m with history := (code, days) :: m.history.filter (·.1 != code) }

/-- Reads a history: a list of days, or the newest day, their number and their distance. -/
def historyOfJson : Json → List Date
  | .list ds => ds.map Date.ofJson
  | h =>
    let newest := h.dateAt "newest"
    (List.range (h.natAt "days")).filterMap fun (n : Nat) =>
      newest.addDays? (-(n * h.natAt "every" 1 : Int))

/-- Reads a market. -/
def ofJson (j : Json) : RehearsalMarket where
  pageSize := j.natAt "page_size" 100
  order := match j.textAt "order" with
    | "asc" => .oldestFirst
    | "rotated" => .rotated
    | _ => .newestFirst
  ignoresWindow := j.isTrueAt "ignore_window"
  history := (j.at! "history").entries.map fun (c, h) => (c, historyOfJson h)
  faults := (j.at! "errors").entries.map fun (c, e) => ⟨c, e.natAt "after", .ofJson e⟩
  requests := []
  answered := []

end RehearsalMarket

/-- Writes a request. -/
def PriceRequest.toJson (r : PriceRequest) : Json :=
  .list [.str r.endpoint.name, .str r.key.text, .str r.first.iso, .str r.last.iso]

end DailyBars
