import DailyBars.Broker.Config
import DailyBars.Broker.Issuer
import DailyBars.Broker.Pacing
import DailyBars.Broker.Page

/-!
# The client for daily prices

A request for prices is made in the name of the default account, with its token, and waits for its
slot. The token is got before the slot is reserved, so that a request that cannot be made takes no
slot from others.
-/

namespace DailyBars

/-- A client for prices over a world of type `σ`. -/
structure PriceClient (σ : Type) where
  config : BrokerConfig
  http : HttpExchange σ
  /-- The token of the default account. -/
  token : Attempt σ BrokerError String
  pacing : Part σ Pacing

/-- The rows of an answer. -/
def PriceRow.ofResponse (e : Endpoint) (r : HttpResponse) : Except BrokerError (List PriceRow) :=
  if r.isSuccess then PriceRow.ofPage e r.text
  else if r.status = 429 then .error .rateLimited
  else .error (.api (Text.decimalText r.status) r.text)

namespace PriceClient

variable {σ : Type}

/-- The account that asks for prices. -/
def account (c : PriceClient σ) : Except BrokerError Account :=
  match c.config.defaultAccount? with
  | some a => .ok a
  | none => .error (.accountNotFound "기본 계좌가 설정되지 않았습니다")

/-- Says of a number of rows that they were dropped. -/
def logSkipped : Nat → Act σ Unit
  | 0 => pure ()
  | n + 1 => do
    Act.emit .debug .prices "Skipping daily row without trade date" []
    logSkipped n

/-- Asks for the prices of a key. -/
def prices (c : PriceClient σ) : DailyPrices σ := fun endpoint key first last => do
  let query ← Attempt.ofResult (endpoint.query key first last)
  let account ← Attempt.ofResult c.account
  let token ← c.token
  let headers ← Attempt.ofResult (priceHeaders account token endpoint.transactionCode)
  Attempt.ofAct (Pacing.acquire c.pacing)
  let answer ← (c.http ⟨.get, c.config.baseUrl, endpoint.path, query, headers, none⟩).orElseAs
    .ofHttp
  if !answer.isSuccess then
    Attempt.ofAct <| Act.emit .error .prices "Daily price inquiry failed"
      [("status", .text answer.statusText)]
  let rows ← Attempt.ofResult (PriceRow.ofResponse endpoint answer)
  Attempt.ofAct (logSkipped (PriceRow.skipped rows))
  let bars ← Attempt.ofResult (PriceRow.bars rows)
  Attempt.ofAct (Act.emit .debug .prices "Daily price page received" [("rows", .nat bars.length)])
  return bars

end PriceClient

end DailyBars
