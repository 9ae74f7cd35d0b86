import DailyBars.Broker.Client
import DailyBars.Collect.Batch
import DailyBars.Proofs.Collect.Walk
import DailyBars.Proofs.Json.Tokens
import Mathlib.Data.List.Basic
import Mathlib.Logic.Relation

/-!
# Pages of the client, as a walk sees them

The client drops the rows without a trade date before it gives a page to the walk, so the walk counts
dated rows only. It asks for a further page exactly if a hundred of them have come, and not if the
broker has sent a hundred rows (`Strategy.goesOn_of_requests`).
-/

namespace DailyBars

variable {σ ρ : Type}

/-! ### Dated rows -/

namespace PriceRow

/-- Whether a row has a trade date. -/
def isDated (r : PriceRow) : Bool := Text.trim r.date != ""

/-- A row gives a bar exactly if it has a trade date. -/
theorem length_of_toBar? {r : PriceRow} {b : Option Bar} (h : r.toBar? = .ok b) :
    b.toList.length = if r.isDated then 1 else 0 := by
  unfold toBar? at h
  dsimp only at h
  by_cases hraw : Text.trim r.date = ""
  · rw [if_pos hraw] at h
    cases h
    simp [isDated, hraw]
  · rw [if_neg hraw] at h
    split at h
    · cases h
      simp [isDated, hraw]
    · cases h

/-- There are as many bars as rows with a trade date. -/
theorem length_of_bars {rows : List PriceRow} {bs : List Bar} (h : bars rows = .ok bs) :
    bs.length = rows.countP isDated := by
  induction rows generalizing bs with
  | nil =>
      cases h
      rfl
  | cons r rows ih =>
      unfold bars at h
      cases hr : r.toBar? with
      | error e => rw [hr] at h; cases h
      | ok b =>
          rw [hr] at h
          cases hrest : bars rows with
          | error e => rw [hrest] at h; cases h
          | ok rest =>
              rw [hrest] at h
              cases h
              rw [List.length_append, length_of_toBar? hr, ih hrest, List.countP_cons, Nat.add_comm]

end PriceRow

/-! ### The client's answer, and what is read from it -/

/-- A text without a mark at its beginning is taken as it is. -/
theorem HttpResponse.text_ofList {status : Nat} {cs : List Char} (hstatus : ¬ (status = 204 ∨ status = 304))
    (hmark : cs.head? ≠ some '\uFEFF') :
    (⟨status, String.ofList cs⟩ : HttpResponse).text = String.ofList cs := by
  unfold text
  rw [if_neg hstatus, String.toList_ofList]
  split
  · exact absurd rfl hmark
  · rfl

namespace PriceClient

/-- Gets the broker's answer to a request for prices. -/
def ask (c : PriceClient σ) (endpoint : Endpoint) (key : InstrumentKey) (first last : Date) :
    Attempt σ BrokerError HttpResponse := do
  let query ← Attempt.ofResult (endpoint.query key first last)
  let account ← Attempt.ofResult c.account
  let token ← c.token
  let headers ← Attempt.ofResult (priceHeaders account token endpoint.transactionCode)
  Attempt.ofAct (Pacing.acquire c.pacing)
  (c.http ⟨.get, c.config.baseUrl, endpoint.path, query, headers, none⟩).orElseAs .ofHttp

/-- Reads the bars in an answer. -/
def read (endpoint : Endpoint) (answer : HttpResponse) : Attempt σ BrokerError (List Bar) := do
  if !answer.isSuccess then
    Attempt.ofAct <| Act.emit .error .prices "Daily price inquiry failed"
      [("status", .text answer.statusText)]
  let rows ← Attempt.ofResult (PriceRow.ofResponse endpoint answer)
  Attempt.ofAct (logSkipped (PriceRow.skipped rows))
  let bars ← Attempt.ofResult (PriceRow.bars rows)
  Attempt.ofAct (Act.emit .debug .prices "Daily price page received" [("rows", .nat bars.length)])
  return bars

theorem prices_eq (c : PriceClient σ) (endpoint : Endpoint) (key : InstrumentKey)
    (first last : Date) :
    c.prices endpoint key first last = c.ask endpoint key first last >>= read endpoint := by
  simp only [prices, ask, bind_assoc]
  rfl

/-- A request that can be made is answered as the server answers it. -/
theorem exec_ask_ok {c : PriceClient σ} {endpoint : Endpoint} {key : InstrumentKey} {first last : Date}
    {query headers : List (String × String)} {a : Account} {token : String} {answer : HttpResponse}
    {s s₁ s₂ : Session σ} (hquery : endpoint.query key first last = .ok query)
    (haccount : c.account = .ok a) (htoken : c.token.exec s = (.ok token, s₁))
    (hheaders : priceHeaders a token endpoint.transactionCode = .ok headers)
    (hhttp : (c.http ⟨.get, c.config.baseUrl, endpoint.path, query, headers, none⟩).exec
      (Act.exec (Pacing.acquire c.pacing) s₁).2 = (.ok answer, s₂)) :
    (c.ask endpoint key first last).exec s = (.ok answer, s₂) := by
  unfold ask
  rw [Attempt.exec_ofResult_bind_ok hquery, Attempt.exec_ofResult_bind_ok haccount,
    Attempt.exec_bind_ok htoken, Attempt.exec_ofResult_bind_ok hheaders,
    Attempt.exec_bind_ok (Attempt.exec_ofAct ..)]
  exact Attempt.exec_orElseAs_ok.mpr hhttp

theorem exec_logSkipped (n : Nat) (s : Session σ) :
    ∃ log, Act.exec (logSkipped n) s = ((), { s with log := log }) := by
  induction n generalizing s with
  | zero => exact ⟨s.log, rfl⟩
  | succ n ih => exact ih _

/-- Reading an answer changes nothing but the log. -/
theorem exec_read {endpoint : Endpoint} {answer : HttpResponse} {rows : List PriceRow}
    {bars : List Bar} (hsuccess : answer.isSuccess) (hrows : PriceRow.ofPage endpoint answer.text = .ok rows)
    (hbars : PriceRow.bars rows = .ok bars) (s : Session σ) :
    ∃ log, (read endpoint answer).exec s = (.ok bars, { s with log := log }) := by
  have hresponse : PriceRow.ofResponse endpoint answer = .ok rows := by
    rw [PriceRow.ofResponse, if_pos hsuccess, hrows]
  obtain ⟨log, hskipped⟩ := exec_logSkipped (PriceRow.skipped rows) s
  unfold read
  simp only [hsuccess, Bool.not_true, Bool.false_eq_true, if_false]
  rw [Attempt.exec_ofResult_bind_ok hresponse, Attempt.exec_bind_ok (Attempt.exec_ofAct ..),
    hskipped, Attempt.exec_ofResult_bind_ok hbars]
  exact ⟨_, rfl⟩

end PriceClient

/-! ### The requests of a walk -/

/-- What a walk has come to: where its next request ends, how much it has stored, and the session. -/
structure WalkPoint (σ : Type) where
  cursor : Date
  progress : WalkProgress
  session : Session σ

namespace PageSource

variable {source : PageSource σ ρ} {sink : PageSink σ ρ} {pageSize : Nat} {start : Date}
  {p q : WalkPoint σ}

/-- A walk goes on after a page that is stored. -/
inductive WalkStep (source : PageSource σ ρ) (sink : PageSink σ ρ) (pageSize : Nat) (start : Date)
    (p : WalkPoint σ) : WalkPoint σ → Prop
  | next {page : List ρ} {n : Nat} {s₁ s₂ : Session σ} {next : { d : Date // d < p.cursor }}
      (hfetch : (source.fetch start p.cursor).exec p.session = (.ok page, s₁)) (hpage : page ≠ [])
      (hsink : (sink page).exec s₁ = (.ok n, s₂))
      (hnext : source.nextEnd? pageSize start p.cursor page = some next) :
      WalkStep source sink pageSize start p
        ⟨next.val, ⟨p.progress.pages + 1, p.progress.saved + n⟩,
          (Act.exec (source.logNext pageSize p.cursor page) s₂).2⟩

/-- A walk makes the one request and, later or at once, the other. -/
abbrev Requests (source : PageSource σ ρ) (sink : PageSink σ ρ) (pageSize : Nat) (start : Date) :
    WalkPoint σ → WalkPoint σ → Prop :=
  Relation.ReflTransGen (WalkStep source sink pageSize start)

/-- What a walk does is what it does from any request on. -/
theorem exec_of_requests (h : source.Requests sink pageSize start p q) :
    (source.walkFrom sink pageSize start p.cursor p.progress).exec p.session =
      (source.walkFrom sink pageSize start q.cursor q.progress).exec q.session := by
  induction h with
  | refl => rfl
  | tail _ hstep ih =>
      cases hstep with
      | next hfetch hpage hsink hnext => exact ih.trans (walkFrom_next hfetch hpage hsink hnext)

end PageSource

/-! ### When a backfill over the client goes on -/

namespace Strategy

variable {c : PriceClient σ} {strategy : Strategy} {store : PriceStore σ} {i : Instrument}
  {key : InstrumentKey} {start last : Date} {s s₁ s₂ : Session σ} {p q : WalkPoint σ}
  {answer : HttpResponse} {rows : List PriceRow} {bars : List Bar} {n : Nat}

/-- A backfill over the client has come to a request, on its way from the last day back to the start. -/
def ComesTo (strategy : Strategy) (c : PriceClient σ) (store : PriceStore σ) (key : InstrumentKey)
    (start last : Date) (s : Session σ) (p : WalkPoint σ) : Prop :=
  (strategy.source c.prices key).Requests (store.saveNew key) strategy.pageSize start
    ⟨last, ⟨0, 0⟩, s⟩ p

/-- The request at a point of a backfill is answered with rows, some of which are dated, and the bars of
these are stored. -/
structure Stores (strategy : Strategy) (c : PriceClient σ) (store : PriceStore σ)
    (key : InstrumentKey) (start : Date) (p : WalkPoint σ) (rows : List PriceRow) (bars : List Bar)
    (saved : Nat) (s' : Session σ) : Prop where
  bars_eq : PriceRow.bars rows = .ok bars
  dated : bars ≠ []
  exec : ∃ answer s₁, answer.isSuccess ∧
    (c.ask (.ofAssetType strategy.assetType) key start p.cursor).exec p.session = (.ok answer, s₁) ∧
    PriceRow.ofPage (.ofAssetType strategy.assetType) answer.text = .ok rows ∧
    (store.saveNew key bars).exec
      ((PriceClient.read (.ofAssetType strategy.assetType) answer).exec s₁).2 = (.ok saved, s')

theorem Stores.exec_fetch (h : strategy.Stores c store key start p rows bars n s) :
    ∃ s₁, ((strategy.source c.prices key).fetch start p.cursor).exec p.session = (.ok bars, s₁) ∧
      (store.saveNew key bars).exec s₁ = (.ok n, s) := by
  obtain ⟨answer, s₁, hsuccess, hask, hrows, hsave⟩ := h.exec
  obtain ⟨log, hread⟩ := PriceClient.exec_read hsuccess hrows h.bars_eq s₁
  rw [hread] at hsave
  refine ⟨_, Attempt.exec_orElseAs_ok.mpr ?_, hsave⟩
  rw [PriceClient.prices_eq, Attempt.exec_bind_ok hask, hread]

/-- What a walk comes to at its end, it is what a backfill comes to. -/
theorem exec_backfill_of_walk {prices : DailyPrices σ} {progress : WalkProgress}
    (hkey : i.key? = some key)
    (hwalk : ((strategy.source prices key).walk (store.saveNew key) strategy.pageSize start last).exec s =
      (.ok progress, s₁)) :
    ∃ log, (strategy.backfill prices store i start last).exec s =
      (.ok progress.saved, { s₁ with log := log }) := by
  unfold backfill
  have hfound : strategy.keyOf i = .ok key := by rw [keyOf, hkey]
  rw [Attempt.exec_ofResult_bind_ok hfound, Attempt.exec_bind_ok hwalk]
  exact ⟨_, rfl⟩

/-- A backfill that has come to its end is followed by the mark on its instrument. -/
theorem exec_work_of_backfill {b : Batch σ} {strategy : Strategy} {i : Instrument} {saved : Nat}
    (h : (strategy.backfill b.prices b.store i start last).exec s = (.ok saved, s₁)) :
    (b.work .backfill strategy i start last).exec s =
      (do (b.store.markCompleted i.id).orElseAs .storage; return saved : Attempt σ CollectError Nat).exec
        s₁ := by
  unfold Batch.work
  exact Attempt.exec_bind_ok h

/-- **A backfill over the client goes on after a hundred dated rows.** At every request that it comes to,
if some rows of the answer have a trade date: if at least a hundred have one, it goes on with the day
before the oldest of them, unless this leads nowhere. If fewer have one, it asks for nothing more,
however many rows the broker has sent, and what comes next is the mark that the history is complete. -/
theorem goesOn_of_comesTo {b : Batch σ} (hprices : b.prices = c.prices)
    (hsize : strategy.pageSize = CollectConfig.pricePageSize) (hkey : i.key? = some key)
    (hp : strategy.ComesTo c b.store key start last s p)
    (hstores : strategy.Stores c b.store key start p rows bars n s₂) :
    (100 ≤ rows.countP PriceRow.isDated → ∀ d,
      (strategy.source c.prices key).dayBefore? bars = some d → d < p.cursor → start ≤ d →
        ∃ q, q.cursor = d ∧ q.session.world = s₂.world ∧
          strategy.ComesTo c b.store key start last s q) ∧
    (rows.countP PriceRow.isDated < 100 → ∃ s', s'.world = s₂.world ∧
      (b.work .backfill strategy i start last).exec s =
        (do (b.store.markCompleted i.id).orElseAs .storage; return p.progress.saved + n :
          Attempt σ CollectError Nat).exec s') := by
  obtain ⟨s₁, hfetch, hsave⟩ := hstores.exec_fetch
  have hcount : bars.length = rows.countP PriceRow.isDated :=
    PriceRow.length_of_bars hstores.bars_eq
  have hfull : fullPage strategy.pageSize = 100 := by rw [hsize]; rfl
  constructor
  · intro hmany d hday hback hstart
    have hnext : (strategy.source c.prices key).nextEnd? strategy.pageSize start p.cursor bars =
        some ⟨d, hback⟩ := by
      refine PageSource.nextEnd?_eq_some_iff.mpr ⟨?_, hday, hstart⟩
      rw [hfull, hcount]
      exact hmany
    exact ⟨_, rfl, PageSource.world_logNext .., hp.tail (.next hfetch hstores.dated hsave hnext)⟩
  · intro hfew
    -- Rows without a date are no bars, so the page is short for the walk.
    have hlast : (strategy.source c.prices key).nextEnd? strategy.pageSize start p.cursor bars =
        none := by
      refine if_pos ?_
      rw [hfull, hcount]
      exact hfew
    have hwalk := (PageSource.exec_of_requests hp).trans
      (PageSource.walkFrom_last hfetch hstores.dated hsave hlast)
    obtain ⟨log, hbackfill⟩ := exec_backfill_of_walk hkey hwalk
    rw [← hprices] at hbackfill
    refine ⟨_, ?_, exec_work_of_backfill hbackfill⟩
    exact PageSource.world_logNext ..

/-- A backfill over the client goes on after a hundred rows, with and without a trade date, if some
have one. -/
def GoesOnByRows (strategy : Strategy) (c : PriceClient σ) (store : PriceStore σ)
    (key : InstrumentKey) (start last : Date) (s : Session σ) : Prop :=
  ∀ p rows bars n s₂, strategy.ComesTo c store key start last s p →
    strategy.Stores c store key start p rows bars n s₂ → 100 ≤ rows.length →
      ∀ d, (strategy.source c.prices key).dayBefore? bars = some d → d < p.cursor → start ≤ d →
        ∃ q, q.cursor = d ∧ strategy.ComesTo c store key start last s q

end Strategy

/-! ### A hundred rows, one of them dated -/

namespace PaddedPage

/-- A pacer, and the ids of the instruments whose history counts as complete. -/
structure World where
  pacing : Pacing
  completed : List Int

/-- A row with a trade date, and ninety-nine of which nothing was sent. -/
def rows : List PriceRow := { PriceRow.blank with date := "20240304" } :: List.replicate 99 .blank

def body : List Char :=
  "\x7b\"rt_cd\":\"0\",\"output2\":[\x7b\"stck_bsop_date\":\"20240304\"\x7d".toList ++
    (List.replicate 99 [',', '\x7b', '\x7d']).flatten ++ "]\x7d".toList

def answer : HttpResponse := ⟨200, String.ofList body⟩

theorem head?_body : body.head? = some '\x7b' := rfl

theorem text_answer : answer.text = String.ofList body := by
  refine HttpResponse.text_ofList (by decide) fun hmark => ?_
  cases head?_body.symm.trans hmark

theorem envelope_body : ∃ envelope, Decoder.ofChars (Envelope.decoder .domesticStock) body = .ok envelope ∧
    envelope.contents = .ok rows := by
  have hread : ((Decoder.ofChars (Envelope.decoder .domesticStock) body).toOption.map
      (·.contents)) = some (.ok rows) := by decide +kernel
  obtain ⟨envelope, hsome, hrows⟩ := Option.map_eq_some_iff.mp hread
  cases hbody : Decoder.ofChars (Envelope.decoder .domesticStock) body with
  | error e => rw [hbody] at hsome; cases hsome
  | ok found =>
      rw [hbody] at hsome
      cases hsome
      exact ⟨envelope, rfl, hrows⟩

theorem rows_answer : PriceRow.ofPage .domesticStock answer.text = .ok rows := by
  obtain ⟨envelope, hbody, hrows⟩ := envelope_body
  rw [text_answer, PriceRow.ofPage, Decoder.ofText_ofList, hbody]
  exact hrows

/-- The broker sends the same page whatever it is asked for. -/
def client : PriceClient World where
  config := .ofAccounts .real [⟨"main", "12345678-01", "key", "secret"⟩]
  http _ := pure answer
  token := pure "token"
  pacing := ⟨(·.pacing), fun pacing w => { w with pacing }⟩

/-- A store that takes every bar. -/
def store : PriceStore World where
  begin := pure ()
  existingDates _ _ _ := pure []
  saveAll _ bars := pure bars.length
  markCompleted id := ExceptT.mk (Act.onWorld fun w => (.ok (), { w with completed := id :: w.completed }))
  commit := pure ()
  rollback := pure ()

/-- The oldest day that is wanted. -/
def start : Date := ⟨10957, by decide⟩

/-- The trade date of the one row. -/
def last : Date := ⟨19786, by decide⟩

def strategy : Strategy := ⟨.domesticStock, CollectConfig.pricePageSize⟩

def key : InstrumentKey := ⟨.domesticStock, "A", none⟩

def session : Session World := ⟨⟨.start 20 0, []⟩, ⟨⟨1709564400, 0⟩, 0⟩, []⟩

/-- The bar of the dated row. -/
def bar : Bar := PriceRow.blank.bar last

theorem bars_rows : PriceRow.bars rows = .ok [bar] := by decide +kernel

theorem exec_ask : ∃ s₁, s₁.world.completed = [] ∧
    (client.ask .domesticStock key start last).exec session = (.ok answer, s₁) := by
  have hheaders : (priceHeaders ⟨"main", "12345678-01", "key", "secret"⟩ "token"
      Endpoint.domesticStock.transactionCode).toOption.isSome := by decide +kernel
  cases hmade : priceHeaders ⟨"main", "12345678-01", "key", "secret"⟩ "token"
      Endpoint.domesticStock.transactionCode with
  | error e =>
      rw [hmade] at hheaders
      cases hheaders
  | ok headers => exact ⟨_, rfl, PriceClient.exec_ask_ok rfl rfl rfl hmade rfl⟩

/-- The page is stored. -/
theorem stores : ∃ s₂, s₂.world.completed = [] ∧
    strategy.Stores client store key start ⟨last, ⟨0, 0⟩, session⟩ rows [bar] 1 s₂ := by
  obtain ⟨s₁, hcompleted, hask⟩ := exec_ask
  obtain ⟨log, hread⟩ := PriceClient.exec_read rfl rows_answer bars_rows s₁
  have hsave : (store.saveNew key [bar]).exec
      ((PriceClient.read .domesticStock answer).exec s₁).2 =
        (.ok 1, ((store.saveNew key [bar]).exec { s₁ with log := log }).2) := by
    rw [hread]
    rfl
  refine ⟨((store.saveNew key [bar]).exec { s₁ with log := log }).2, hcompleted, bars_rows,
    List.cons_ne_nil _ _, answer, s₁, rfl, hask, rows_answer, hsave⟩

/-- A page of one bar is the last one. -/
theorem eq_of_comesTo {q : WalkPoint World} (h : strategy.ComesTo client store key start last session q) :
    q.cursor = last := by
  obtain ⟨s₂, -, hstores⟩ := stores
  obtain ⟨s₁, hfetch, -⟩ := hstores.exec_fetch
  obtain rfl | ⟨p, hstep, -⟩ := Relation.ReflTransGen.cases_head h
  · rfl
  · cases hstep with
    | next hfetch' hpage hsink hnext =>
        cases hfetch.symm.trans hfetch'
        cases hnext

/-- The page does not make the backfill go on, although there are a hundred rows in it. -/
theorem not_goesOnByRows : ¬ strategy.GoesOnByRows client store key start last session := by
  intro h
  obtain ⟨s₂, -, hstores⟩ := stores
  obtain ⟨q, hq, hcomes⟩ := h _ rows [bar] 1 s₂ .refl hstores (by decide) ⟨19785, by decide⟩
    (by decide +kernel) (by decide) (by decide)
  cases hq.symm.trans (eq_of_comesTo hcomes)

def instrument : Instrument := ⟨1, "A", none, none, some .domesticStock, false⟩

def batch : Batch World :=
  ⟨⟨fun _ _ _ => pure [instrument]⟩, store, client.prices, .full CollectConfig.pricePageSize,
    ⟨100, CollectConfig.pricePageSize, start⟩⟩

/-- The history counts as complete after one bar. -/
theorem completed_after_padding : ∃ s', s'.world.completed = [1] ∧
    (batch.work .backfill strategy instrument start last).exec session = (.ok 1, s') := by
  obtain ⟨s₂, hcompleted, hstores⟩ := stores
  obtain ⟨s', hworld, hwork⟩ := (Strategy.goesOn_of_comesTo (b := batch) (i := instrument) rfl rfl rfl
    .refl hstores).2 (by decide +kernel)
  refine ⟨_, ?_, hwork⟩
  change 1 :: s'.world.completed = [1]
  rw [hworld, hcompleted]

end PaddedPage

end DailyBars
