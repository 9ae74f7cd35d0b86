import DailyBars.Proofs.Broker.PricePages
import DailyBars.Proofs.Calendar.Compact
import DailyBars.Proofs.Collect.Gaps
import DailyBars.Proofs.Collect.Pages
import DailyBars.Proofs.Collect.Turns
import DailyBars.Proofs.Rehearsal.Store

/-!
# What was asked for, and nothing else

No stage of a collection looks at the days of the bars that come: what is stored is what the broker
sends. So the days of new rows are bounded by what is written in the queries, if the broker keeps to
it. Three of the four queries name both ends of the window; the one for overseas stocks names the last
day only, and days before the first are stored with the others.
-/

namespace DailyBars

variable {σ : Type} {ledger : σ → Ledger}

/-! ### A broker that keeps to what it is asked -/

namespace PriceClient

variable {c : PriceClient σ} {e : Endpoint} {key : InstrumentKey} {first last : Date}
  {s s' : Session σ} {answer : HttpResponse} {bars : List Bar}

/-- The broker honours the days in a query: no bar is before the first day or after the last day of
it, and none is after its base date. -/
def Honoured (c : PriceClient σ) : Prop :=
  ∀ (e : Endpoint) (key : InstrumentKey) (first last : Date) (query headers : List (String × String))
    (s s' : Session σ) (answer : HttpResponse) (bars : List Bar),
    e.query key first last = .ok query →
    (c.http ⟨.get, c.config.baseUrl, e.path, query, headers, none⟩).exec s = (.ok answer, s') →
    answer.isSuccess → Bar.ofPage e answer.text = .ok bars → ∀ b ∈ bars,
      (("FID_INPUT_DATE_1", first.compact) ∈ query → first ≤ b.tradeDate) ∧
      (("FID_INPUT_DATE_2", last.compact) ∈ query → b.tradeDate ≤ last) ∧
      (("BYMD", last.compact) ∈ query → b.tradeDate ≤ last)

/-- An answer to a question for prices is one to a request with the query for it. -/
theorem http_of_ask (h : (c.ask e key first last).exec s = (.ok answer, s')) :
    ∃ query headers s₁, e.query key first last = .ok query ∧
      (c.http ⟨.get, c.config.baseUrl, e.path, query, headers, none⟩).exec s₁ = (.ok answer, s') := by
  unfold ask at h
  obtain ⟨query, s₁, hquery, h⟩ := Attempt.exec_bind_eq_ok.mp h
  obtain ⟨a, s₂, -, h⟩ := Attempt.exec_bind_eq_ok.mp h
  obtain ⟨token, s₃, -, h⟩ := Attempt.exec_bind_eq_ok.mp h
  obtain ⟨headers, s₄, -, h⟩ := Attempt.exec_bind_eq_ok.mp h
  obtain ⟨⟨⟩, s₅, -, h⟩ := Attempt.exec_bind_eq_ok.mp h
  exact ⟨query, headers, s₅, (Prod.mk.inj hquery).1, Attempt.exec_orElseAs_ok.mp h⟩

/-- What is read from an answer are the bars of its page. -/
theorem ofPage_of_read (h : (read e answer).exec s = (.ok bars, s')) :
    answer.isSuccess ∧ Bar.ofPage e answer.text = .ok bars := by
  have hresponse {rows : List PriceRow} (hrows : PriceRow.ofResponse e answer = .ok rows) :
      answer.isSuccess ∧ PriceRow.ofPage e answer.text = .ok rows := by
    unfold PriceRow.ofResponse at hrows
    split at hrows
    · exact ⟨‹_›, hrows⟩
    · split at hrows <;> cases hrows
  have hrest {s₁ : Session σ} (h : Attempt.exec (do
      let rows ← Attempt.ofResult (PriceRow.ofResponse e answer)
      Attempt.ofAct (logSkipped (PriceRow.skipped rows))
      let bars ← Attempt.ofResult (PriceRow.bars rows)
      Attempt.ofAct (Act.emit .debug .prices "Daily price page received" [("rows", .nat bars.length)])
      return bars) s₁ = (.ok bars, s')) :
      answer.isSuccess ∧ Bar.ofPage e answer.text = .ok bars := by
    obtain ⟨rows, s₂, hrows, h⟩ := Attempt.exec_bind_eq_ok.mp h
    obtain ⟨⟨⟩, s₃, -, h⟩ := Attempt.exec_bind_eq_ok.mp h
    obtain ⟨bars', s₄, hbars, h⟩ := Attempt.exec_bind_eq_ok.mp h
    obtain ⟨⟨⟩, s₅, -, h⟩ := Attempt.exec_bind_eq_ok.mp h
    cases h
    obtain ⟨hsuccess, hpage⟩ := hresponse (Prod.mk.inj hrows).1
    refine ⟨hsuccess, ?_⟩
    unfold Bar.ofPage
    rw [hpage]
    exact (Prod.mk.inj hbars).1
  unfold read at h
  dsimp only at h
  split at h
  · obtain ⟨⟨⟩, s₁, -, h⟩ := Attempt.exec_bind_eq_ok.mp h
    exact hrest h
  · exact hrest h

/-- What a query says of the days of the bars is what it asks for. -/
theorem asksFor_of_query {query : List (String × String)} {day : Date}
    (hquery : e.query key first last = .ok query)
    (hfirst : ("FID_INPUT_DATE_1", first.compact) ∈ query → first ≤ day)
    (hlast : ("FID_INPUT_DATE_2", last.compact) ∈ query → day ≤ last)
    (hbase : ("BYMD", last.compact) ∈ query → day ≤ last) : e.AsksFor first last day := by
  unfold Endpoint.query at hquery
  cases e with
  | domesticStock =>
      cases hquery
      exact ⟨hlast (by simp [Endpoint.windowQuery]), .inr (hfirst (by simp [Endpoint.windowQuery]))⟩
  | domesticIndex =>
      cases hquery
      exact ⟨hlast (by simp [Endpoint.windowQuery]), .inr (hfirst (by simp [Endpoint.windowQuery]))⟩
  | overseasStock =>
      dsimp only at hquery
      split at hquery
      · cases hquery
      · cases hquery
        exact ⟨hbase (by simp), .inl rfl⟩
  | overseasIndex =>
      dsimp only at hquery
      split at hquery
      · cases hquery
      · cases hquery
        exact ⟨hlast (by simp [Endpoint.windowQuery]), .inr (hfirst (by simp [Endpoint.windowQuery]))⟩

/-- **Only bars that were asked for come**, if the broker honours the days in a query. -/
theorem asksFor_of_prices (honoured : c.Honoured)
    (h : (c.prices e key first last).exec s = (.ok bars, s')) :
    ∀ b ∈ bars, e.AsksFor first last b.tradeDate := by
  rw [prices_eq] at h
  obtain ⟨answer, s₁, hask, hread⟩ := Attempt.exec_bind_eq_ok.mp h
  obtain ⟨query, headers, s₀, hquery, hhttp⟩ := http_of_ask hask
  obtain ⟨hsuccess, hpage⟩ := ofPage_of_read hread
  intro b hb
  obtain ⟨hfirst, hlast, hbase⟩ :=
    honoured e key first last query headers s₀ s₁ answer bars hquery hhttp hsuccess hpage b hb
  exact asksFor_of_query hquery hfirst hlast hbase

/-- A client that is kept apart from the store leaves it alone. -/
theorem actsOn_prices (token : c.token.ActsOn ledger id) (http : ∀ r, (c.http r).ActsOn ledger id)
    (pacing : ∀ p w, ledger (c.pacing.set p w) = ledger w) (e : Endpoint) (key : InstrumentKey)
    (first last : Date) : (c.prices e key first last).ActsOn ledger id := by
  have result {ε α : Type} (r : Except ε α) : (Attempt.ofResult r : Attempt σ ε α).ActsOn ledger id :=
    .ofResult Ledger.drafting_eq r
  have quiet {ε α : Type} {x : Act σ α} (hx : ∀ s, ledger (x.exec s).2.world = ledger s.world) :
      (Attempt.ofAct x : Attempt σ ε α).ActsOn ledger id := .ofAct Ledger.drafting_eq hx
  have hacquire (s : Session σ) :
      ledger (Act.exec (Pacing.acquire c.pacing) s).2.world = ledger s.world := by
    unfold Pacing.acquire Act.sleepUntil
    rw [Act.exec_bind, Act.exec_bind, Act.exec_uptime, Act.exec_onPart, Act.exec_bind,
      Act.exec_uptime]
    split <;> exact pacing _ _
  have hskipped (n : Nat) (s : Session σ) :
      ledger (Act.exec (logSkipped n) s).2.world = ledger s.world := by
    obtain ⟨log, hlog⟩ := exec_logSkipped n s
    rw [hlog]
  have hread (answer : HttpResponse) : (read e answer).ActsOn ledger id := by
    unfold read
    dsimp only
    split
    · refine .bind Ledger.drafting_eq (quiet fun _ => rfl) fun _ => ?_
      refine .bind Ledger.drafting_eq (result _) fun rows => ?_
      refine .bind Ledger.drafting_eq (quiet (hskipped _)) fun _ => ?_
      refine .bind Ledger.drafting_eq (result _) fun bars => ?_
      exact .bind Ledger.drafting_eq (quiet fun _ => rfl) fun _ => result (.ok bars)
    · refine .bind Ledger.drafting_eq (result _) fun rows => ?_
      refine .bind Ledger.drafting_eq (quiet (hskipped _)) fun _ => ?_
      refine .bind Ledger.drafting_eq (result _) fun bars => ?_
      exact .bind Ledger.drafting_eq (quiet fun _ => rfl) fun _ => result (.ok bars)
  rw [prices_eq]
  refine .bind Ledger.drafting_eq ?_ hread
  unfold ask
  refine .bind Ledger.drafting_eq (result _) fun query => ?_
  refine .bind Ledger.drafting_eq (result _) fun account => ?_
  refine .bind Ledger.drafting_eq token fun token => ?_
  refine .bind Ledger.drafting_eq (result _) fun headers => ?_
  refine .bind Ledger.drafting_eq (quiet hacquire) fun _ => ?_
  exact (http _).orElseAs _

end PriceClient

theorem Endpoint.AsksFor.mono {e : Endpoint} {first last later day : Date}
    (h : e.AsksFor first last day) (hlater : last ≤ later) : e.AsksFor first later day :=
  ⟨Date.le_trans h.1 hlater, h.2⟩

/-! ### What is drafted -/

/-- A call that saves bars drafts some of them, under its key. -/
def PriceStore.SavesGiven (store : PriceStore σ) (ledger : σ → Ledger) : Prop :=
  ∀ key bars, (store.saveAll key bars).ChangesBy ledger
    fun l l' => l.DraftedOf (fun r => r.key = key ∧ r.bar ∈ bars) l'

/-- Storing a page drafts some of its bars. -/
theorem PriceStore.draftedOf_saveNew {store : PriceStore σ} (laws : store.Transactional ledger)
    (given : store.SavesGiven ledger) {key : InstrumentKey} {page : List Bar} {saved : Nat}
    {s s' : Session σ} (hpage : page ≠ []) (h : (store.saveNew key page).exec s = (.ok saved, s')) :
    (ledger s.world).DraftedOf (fun r => r.key = key ∧ r.bar ∈ page) (ledger s'.world) := by
  obtain ⟨oldest, newest, days, s₁, -, -, hdays, hrest⟩ := saveNew_ok hpage h
  have hasked : ledger s₁.world = ledger s.world := (laws.existingDates key oldest newest).ok _ _ _ hdays
  rcases hrest with ⟨-, -, hworld⟩ | ⟨-, s₂, hsave, hworld⟩
  · rw [hworld, hasked]
    exact (Ledger.drafting_draftedOf _).refl _
  · rw [hworld, ← hasked]
    exact ((given key (freshBars days page)).ok _ _ _ hsave).mono fun r hr =>
      ⟨hr.1, List.mem_of_mem_filter hr.2⟩

namespace Batch

variable {b : Batch σ} {c : PriceClient σ} {job : Job} {strategy : Strategy} {key : InstrumentKey}
  {i : Instrument} {start last cursor : Date} {s s' : Session σ} {bars : List Bar} {saved : Nat}

/-- The bars of a new row were asked for. -/
def AskedRow (start last : Date) (r : StoredBar) : Prop :=
  (Endpoint.ofAssetType r.key.assetType).AsksFor start last r.bar.tradeDate

section Asked

variable (hprices : b.prices = c.prices) (honoured : c.Honoured) (laws : b.Transactional ledger)
  (given : b.store.SavesGiven ledger)

include hprices honoured laws given

/-- The pages of a job bring nothing that the job has not asked for. -/
theorem draftedOf_pages (h : b.Pages job strategy key start cursor s bars saved s') :
    (ledger s.world).DraftedOf (fun r => r.key = key ∧
      (Endpoint.ofAssetType strategy.assetType).AsksFor start cursor r.bar.tradeDate)
      (ledger s'.world) := by
  have hkept {cursor : Date} {s s₁ : Session σ} {page : List Bar}
      (hfetch : (b.prices (.ofAssetType strategy.assetType) key start cursor).exec s = (.ok page, s₁)) :
      ledger s₁.world = ledger s.world := (laws.prices _ _ _ _).ok _ _ _ hfetch
  have hpage {cursor : Date} {s s₁ s₂ : Session σ} {page : List Bar} {n : Nat}
      (hfetch : (b.prices (.ofAssetType strategy.assetType) key start cursor).exec s = (.ok page, s₁))
      (hne : page ≠ []) (hsave : (b.store.saveNew key page).exec s₁ = (.ok n, s₂)) :
      (ledger s.world).DraftedOf (fun r => r.key = key ∧
        (Endpoint.ofAssetType strategy.assetType).AsksFor start cursor r.bar.tradeDate)
        (ledger s₂.world) := by
    have hdrafted := PriceStore.draftedOf_saveNew laws.store given hne hsave
    rw [hkept hfetch] at hdrafted
    rw [hprices] at hfetch
    exact hdrafted.mono fun r hr =>
      ⟨hr.1, PriceClient.asksFor_of_prices honoured hfetch r.bar hr.2⟩
  induction h with
  | empty hfetch hworld =>
      rw [hworld, hkept hfetch]
      exact (Ledger.drafting_draftedOf _).refl _
  | last hfetch hne hsave _ hworld =>
      rw [hworld]
      exact hpage hfetch hne hsave
  | @next cursor _ _ _ _ _ _ _ _ _ next hfetch hne hsave _ hworld _ ih =>
      -- What is asked for up to an earlier day is asked for up to the later one as well.
      rw [hworld] at ih
      exact (Ledger.drafting_draftedOf _).trans (hpage hfetch hne hsave)
        (ih.mono fun r hr => ⟨hr.1, hr.2.mono (Date.le_of_lt next.property)⟩)

/-- What a job gathers without an error was asked for. -/
theorem draftedOf_gather (h : (b.gather job strategy i start last).exec s = (.ok saved, s')) :
    (ledger s.world).DraftedOf (fun r => i.key? = some r.key ∧
      (Endpoint.ofAssetType strategy.assetType).AsksFor start last r.bar.tradeDate)
      (ledger s'.world) := by
  obtain ⟨key, bars, hkey, hpages⟩ := pages_of_gather h
  exact (draftedOf_pages hprices honoured laws given hpages).mono fun r hr => ⟨hr.1 ▸ hkey, hr.2⟩

theorem askedRow_of_gathers {l : Ledger} {rows : List StoredBar}
    (h : b.Gathers ledger job i start last l saved rows) : ∀ r ∈ rows, AskedRow start last r := by
  obtain ⟨strategy, opened, gathered, hfind, hopened, hgather, hrows⟩ := h
  obtain ⟨rows', hrows', hall⟩ := draftedOf_gather hprices honoured laws given hgather
  rw [hopened, hrows] at hrows'
  -- Both lists are what the walk has drafted in a new transaction, so they are one.
  have hsame : rows = rows' := by simpa [Ledger.addRows, Ledger.begin] using hrows'
  intro r hr
  obtain ⟨hkey, hasks⟩ := hall r (hsame ▸ hr)
  rw [(Instrument.of_key? hkey).1] at hfind
  rw [Strategies.assetType_of_find hfind] at hasks
  exact hasks

/-- Visits over the same days add rows that were asked for. -/
theorem History.rows_asked {visits : List (Visit σ)} (h : b.History ledger s visits s')
    (hdays : ∀ v ∈ visits, v.start = start ∧ v.last = last) :
    ∃ new, (ledger s'.world).rows = (ledger s.world).rows ++ new ∧
      ∀ r ∈ new, AskedRow start last r := by
  induction h with
  | quiet hsame => exact ⟨[], by rw [List.append_nil]; exact congrArg Prod.snd hsame, by simp⟩
  | @visit s s' v visits hbefore hmakes _ ih =>
      obtain ⟨⟨rfl, rfl⟩, hrest⟩ := List.forall_mem_cons.mp hdays
      obtain ⟨new, hrows, hasked⟩ := ih hrest
      have hstart : (ledger v.before.world).rows = (ledger s.world).rows := congrArg Prod.snd hbefore
      rcases visit_cases laws hmakes with ⟨-, hkept⟩ | ⟨saved, rows, -, hgathers, hkept⟩
      · have hsame : (ledger v.after.world).rows = (ledger v.before.world).rows :=
          congrArg Prod.snd hkept
        exact ⟨new, by rw [hrows, hsame, hstart], hasked⟩
      · have hmore : (ledger v.after.world).rows = (ledger v.before.world).rows ++ rows := by
          have hsnd := congrArg Prod.snd hkept
          unfold keptBy at hsnd
          cases hjob : v.job <;> rw [hjob] at hsnd <;> exact hsnd
        refine ⟨rows ++ new, by rw [hrows, hmore, hstart, List.append_assoc], fun r hr => ?_⟩
        rcases List.mem_append.mp hr with hr | hr
        · exact askedRow_of_gathers hprices honoured laws given hgathers r hr
        · exact hasked r hr

theorem run_rows_asked (job : Job) (start last : Date) (s : Session σ) :
    ∃ new, (ledger ((b.run job start last).exec s).2.world).rows = (ledger s.world).rows ++ new ∧
      ∀ r ∈ new, AskedRow start last r := by
  obtain ⟨turns, s₀, r, s₁, hworld₀, hpaging, -, hworld₁⟩ := exists_traces b job start last s
  rw [hworld₁, ← hworld₀]
  exact History.rows_asked hprices honoured laws given (hpaging.history laws) fun v hv =>
    (hpaging.makes hv).2.2

end Asked

/-- What a batch stores was asked for, in a sense: the rows that a collection or a backfill drafts for
an instrument, and those that a run of either job keeps. A collection asks for its own day, and a
backfill for the days from the start of the history. -/
structure StoresOnly (b : Batch σ) (ledger : σ → Ledger)
    (asked : Endpoint → (first last day : Date) → Prop) : Prop where
  collect : ∀ (strategy : Strategy) (i : Instrument) (start last : Date) (s s' : Session σ) (saved : Nat),
    (strategy.collect b.prices b.store i start last).exec s = (.ok saved, s') →
    (ledger s.world).DraftedOf
      (fun r => asked (.ofAssetType strategy.assetType) start last r.bar.tradeDate) (ledger s'.world)
  backfill : ∀ (strategy : Strategy) (i : Instrument) (start last : Date) (s s' : Session σ) (saved : Nat),
    (strategy.backfill b.prices b.store i start last).exec s = (.ok saved, s') →
    (ledger s.world).DraftedOf
      (fun r => asked (.ofAssetType strategy.assetType) start last r.bar.tradeDate) (ledger s'.world)
  collectOn : ∀ (day : Date) (s : Session σ), ∃ new,
    (ledger ((b.collectOn day).exec s).2.world).rows = (ledger s.world).rows ++ new ∧
    ∀ r ∈ new, asked (.ofAssetType r.key.assetType) day day r.bar.tradeDate
  backfillUntil : ∀ (day : Date) (s : Session σ), ∃ new,
    (ledger ((b.backfillUntil day).exec s).2.world).rows = (ledger s.world).rows ++ new ∧
    ∀ r ∈ new, asked (.ofAssetType r.key.assetType) b.config.backfillStart day r.bar.tradeDate

/-- **Only what was asked for is stored**, if the broker honours the days in a query: nothing after the
last day, and nothing before the first one but bars of overseas stocks. -/
theorem storesOnly_asksFor (hprices : b.prices = c.prices) (honoured : c.Honoured)
    (laws : b.Transactional ledger) (given : b.store.SavesGiven ledger) :
    b.StoresOnly ledger Endpoint.AsksFor where
  collect strategy i start last s s' saved h := by
    have hgather : (b.gather .collection strategy i start last).exec s = (.ok saved, s') := h
    exact (draftedOf_gather hprices honoured laws given hgather).mono fun _ hr => hr.2
  backfill strategy i start last s s' saved h := by
    have hgather : (b.gather .backfill strategy i start last).exec s = (.ok saved, s') := h
    exact (draftedOf_gather hprices honoured laws given hgather).mono fun _ hr => hr.2
  collectOn day s := run_rows_asked hprices honoured laws given .collection day day s
  backfillUntil day s :=
    run_rows_asked hprices honoured laws given .backfill b.config.backfillStart day s

/-- The day lies in the window, whatever the address. -/
def InWindow (_ : Endpoint) (first last day : Date) : Prop := first ≤ day ∧ day ≤ last

end Batch

/-! ### A day that was not asked for -/

namespace EarlierDay

/-- A store and a pacer. -/
structure World where
  store : RehearsalStore
  pacing : Pacing

def storePart : Part World RehearsalStore := ⟨(·.store), fun store w => { w with store }⟩

def books : World → Ledger := RehearsalStore.ledgerOf storePart

theorem inCalendar_day : -96465292 ≤ (19786 : Int) ∧ (19786 : Int) ≤ 95026236 := by decide

/-- The day that is asked for. -/
def day : Date := ⟨19786, inCalendar_day⟩

/-- An earlier day. -/
def earlier : Date := ⟨19783, by decide⟩

def rows : List PriceRow :=
  [{ PriceRow.blank with date := "20240304" }, { PriceRow.blank with date := "20240301" }]

/-- A page with a bar of both days. -/
def body : List Char :=
  "\x7b\"rt_cd\":\"0\",\"output2\":[\x7b\"xymd\":\"20240304\"\x7d,\x7b\"xymd\":\"20240301\"\x7d]\x7d".toList

def page : HttpResponse := ⟨200, String.ofList body⟩

def bars : List Bar := [PriceRow.blank.bar day, PriceRow.blank.bar earlier]

theorem head?_body : body.head? = some '\x7b' := rfl

theorem text_page : page.text = String.ofList body := by
  refine HttpResponse.text_ofList (by decide) fun hmark => ?_
  cases head?_body.symm.trans hmark

theorem rows_page : PriceRow.ofPage .overseasStock page.text = .ok rows := by
  have hread : ((Decoder.ofChars (Envelope.decoder .overseasStock) body).toOption.map
      (·.contents)) = some (.ok rows) := by decide +kernel
  obtain ⟨envelope, hsome, hrows⟩ := Option.map_eq_some_iff.mp hread
  rw [text_page, PriceRow.ofPage, Decoder.ofText_ofList]
  cases hbody : Decoder.ofChars (Envelope.decoder .overseasStock) body with
  | error e => rw [hbody] at hsome; cases hsome
  | ok found =>
      rw [hbody] at hsome
      cases hsome
      exact hrows

theorem bars_rows : PriceRow.bars rows = .ok bars := by decide +kernel

theorem bars_page : Bar.ofPage .overseasStock page.text = .ok bars := by
  rw [Bar.ofPage, rows_page]
  exact bars_rows

/-- The broker answers a request for overseas stocks up to the day, and no other. -/
def client : PriceClient World where
  config := .ofAccounts .real [⟨"main", "12345678-01", "key", "secret"⟩]
  http r := pure <|
    if r.path = Endpoint.overseasStock.path ∧ ("BYMD", day.compact) ∈ r.query then page else ⟨500, ""⟩
  token := pure "token"
  pacing := ⟨(·.pacing), fun pacing w => { w with pacing }⟩

theorem civil_day : 0 ≤ day.civil.year ∧ day.civil.year ≤ 9999 := by decide

/-- The broker honours the day: both bars are on it or before. -/
theorem honoured : client.Honoured := by
  intro e key first last query headers s s' answer bars' hquery hhttp hsuccess hpage b hb
  have hanswer : answer =
      if e.path = Endpoint.overseasStock.path ∧ ("BYMD", day.compact) ∈ query then page
      else ⟨500, ""⟩ := (Except.ok.inj (Prod.mk.inj hhttp).1).symm
  split at hanswer
  · rename_i hasked
    obtain ⟨hpath, hbase⟩ := hasked
    obtain rfl : e = .overseasStock := by
      cases e <;> first | rfl | exact absurd hpath (by decide)
    subst hanswer
    cases hpage.symm.trans bars_page
    unfold Endpoint.query at hquery
    dsimp only at hquery
    split at hquery
    · cases hquery
    · cases hquery
      have hday : last.compact = day.compact := by simpa [eq_comm] using hbase
      have hlast : last = day := Date.eq_of_compact_eq civil_day hday
      have hall : ∀ b ∈ bars, b.tradeDate ≤ day := by decide
      subst hlast
      exact ⟨by simp, by simp, fun _ => hall b hb⟩
  · rw [hanswer] at hsuccess
    cases hsuccess

def batch : Batch World :=
  ⟨RehearsalStore.watchlist storePart, RehearsalStore.prices storePart, client.prices, .full 100,
    ⟨10, 100, earlier⟩⟩

theorem transactional : batch.Transactional books where
  store := RehearsalStore.transactional_prices fun _ _ => rfl
  prices := PriceClient.actsOn_prices (.ofResult Ledger.drafting_eq (.ok _))
    (fun _ => .ofResult Ledger.drafting_eq (.ok _)) fun _ _ => rfl
  findPage := RehearsalStore.actsOn_findPage fun _ _ => rfl

theorem savesGiven : batch.store.SavesGiven books := by
  intro key bars
  dsimp only [batch, RehearsalStore.prices]
  exact RehearsalStore.changesBy_callIn (fun _ _ => rfl) fun _ l => Ledger.draftedOf_insert key bars l

/-- What the batch stores was asked for, and that includes the earlier day. -/
theorem stores_only_earlier_days : batch.StoresOnly books Endpoint.AsksFor ∧
    Endpoint.overseasStock.AsksFor day day earlier :=
  ⟨Batch.storesOnly_asksFor rfl honoured transactional savesGiven, by decide, .inl rfl⟩

def key : InstrumentKey := ⟨.overseasStock, "A", some "NAS"⟩

def instrument : Instrument := ⟨1, "A", none, some .nas, some .overseasStock, true⟩

def strategy : Strategy := ⟨.overseasStock, 100⟩

/-- A transaction that has begun on an empty store. -/
def session : Session World :=
  ⟨⟨.ofLedger (Ledger.begin ⟨[instrument], [], none⟩), .start 20 0⟩, ⟨default, 0⟩, []⟩

/-- The prices of the day come with a bar of the earlier day. -/
theorem exec_prices : ∃ s₁, s₁.world.store = session.world.store ∧
    (client.prices .overseasStock key day day).exec session = (.ok bars, s₁) := by
  have hheaders : (priceHeaders ⟨"main", "12345678-01", "key", "secret"⟩ "token"
      Endpoint.overseasStock.transactionCode).toOption.isSome := by decide +kernel
  cases hmade : priceHeaders ⟨"main", "12345678-01", "key", "secret"⟩ "token"
      Endpoint.overseasStock.transactionCode with
  | error e =>
      rw [hmade] at hheaders
      cases hheaders
  | ok headers =>
      have hquery : Endpoint.overseasStock.query key day day = .ok [("EXCD", "NAS"), ("SYMB", "A"),
          ("GUBN", "0"), ("BYMD", day.compact), ("MODP", "1")] := rfl
      have hhttp (s : Session World) (headers : List (String × String)) :
          (client.http ⟨.get, client.config.baseUrl, Endpoint.overseasStock.path,
            [("EXCD", "NAS"), ("SYMB", "A"), ("GUBN", "0"), ("BYMD", day.compact), ("MODP", "1")],
            headers, none⟩).exec s = (.ok page, s) := by
        simp [client, Attempt.exec_pure]
      have hask : (client.ask .overseasStock key day day).exec session =
          (.ok page, (Act.exec (Pacing.acquire client.pacing) session).2) :=
        PriceClient.exec_ask_ok hquery rfl rfl hmade (hhttp _ _)
      obtain ⟨log, hread⟩ := PriceClient.exec_read rfl rows_page bars_rows
        (Act.exec (Pacing.acquire client.pacing) session).2
      refine ⟨{ (Act.exec (Pacing.acquire client.pacing) session).2 with log := log }, rfl, ?_⟩
      rw [PriceClient.prices_eq, Attempt.exec_bind_ok hask, hread]

/-- A collection of the day drafts the bar of the earlier day with the other. -/
theorem exec_collect : ∃ s', (strategy.collect batch.prices batch.store instrument day day).exec session =
    (.ok 2, s') ∧ (books s'.world).visible = rowsOf key bars := by
  obtain ⟨s₁, hstore, hprices⟩ := exec_prices
  have hfetch : ((strategy.source batch.prices key).fetch day day).exec session = (.ok bars, s₁) :=
    Attempt.exec_orElseAs_ok.mpr hprices
  have exact : batch.store.Exact (RehearsalStore.openView storePart fun _ => True) :=
    RehearsalStore.exact_prices (fun _ _ => rfl) fun _ _ h => h
  have hopen : (RehearsalStore.openView storePart fun _ => True).isOpen s₁.world := by
    refine ⟨?_, ?_, trivial⟩
    · change s₁.world.store.ledger.draft.isSome
      rw [hstore]
      rfl
    · change ∀ n c, s₁.world.store.plan n c = none
      rw [hstore]
      exact fun _ _ => rfl
  have hrows : (RehearsalStore.openView storePart fun _ => True).rows s₁.world = [] := by
    change s₁.world.store.ledger.visible = []
    rw [hstore]
    rfl
  have distinct : (bars.map (·.tradeDate)).Nodup := by decide
  obtain ⟨s', hsave, -, hsaved⟩ := exec_saveNew exact key hopen distinct
  rw [hrows] at hsave hsaved
  refine ⟨s', ?_, hsaved⟩
  have hkey : strategy.keyOf instrument = .ok key := rfl
  unfold Strategy.collect
  rw [Attempt.exec_ofResult_bind_ok hkey, PageSource.collectPage, Attempt.exec_bind_ok hfetch]
  exact hsave

/-- **Days before the window are stored.** A collection of one day stores a bar of an earlier day, if
the instrument is a stock overseas. -/
theorem not_storesOnly_inWindow : ¬ batch.StoresOnly books Batch.InWindow := by
  intro h
  obtain ⟨s', hcollect, hrows⟩ := exec_collect
  obtain ⟨rows, hadded, hall⟩ := h.collect strategy instrument day day session s' 2 hcollect
  have hvisible : rows = rowsOf key bars := by
    rw [← hrows, hadded, Ledger.visible_addRows (by rfl)]
    rfl
  have hearlier := hall ⟨key, PriceRow.blank.bar earlier⟩ (by rw [hvisible]; simp [rowsOf, bars])
  exact absurd hearlier.1 (by decide)

end EarlierDay

end DailyBars
