import DailyBars.Collect.Strategy
import DailyBars.Proofs.Collect.Dedup
import DailyBars.Proofs.Collect.Walk
import DailyBars.Proofs.Rehearsal.Market
import DailyBars.Proofs.Rehearsal.Store
import DailyBars.Rehearsal.Collector

/-!
# A backfill stores the whole history

A page leaves out nothing that is as new as its oldest bar; so once it is stored, all that is still
to come is older, and the day before its oldest bar is the right place to go on. The walk therefore
stores the history back to its start, whichever way it ends: after an empty page, after a page that
is not full, or before the start.
-/

namespace DailyBars

/-! ### What a walk adds -/

/-- The rows of a key grow by new bars of a history, at most one a day, each on a day without a row
before. -/
structure Adds (key : InstrumentKey) (history : List Bar) (before after : List StoredBar)
    (new : List Bar) : Prop where
  rows_eq : after = before ++ rowsOf key new
  distinct : (new.map (·.tradeDate)).Nodup
  fromHistory : ∀ b ∈ new, b ∈ history ∧ ¬ HasBar before key b.tradeDate

namespace Adds

variable {key : InstrumentKey} {history new new' page : List Bar} {rows rows₁ rows₂ : List StoredBar}
  {day : Date} {b : Bar}

theorem refl (key : InstrumentKey) (history : List Bar) (rows : List StoredBar) :
    Adds key history rows rows [] :=
  ⟨by simp [rowsOf], List.nodup_nil, by simp⟩

theorem trans (h : Adds key history rows rows₁ new) (h' : Adds key history rows₁ rows₂ new') :
    Adds key history rows rows₂ (new ++ new') := by
  refine ⟨?_, ?_, ?_⟩
  · rw [h'.rows_eq, h.rows_eq, List.append_assoc, rowsOf, rowsOf, rowsOf, List.map_append]
  · rw [List.map_append, List.nodup_append]
    refine ⟨h.distinct, h'.distinct, ?_⟩
    rintro d hd _ hd' rfl
    obtain ⟨b, hb, rfl⟩ := List.mem_map.mp hd'
    refine (h'.fromHistory b hb).2 ?_
    rw [h.rows_eq, hasBar_append, hasBar_rowsOf]
    exact .inr ⟨rfl, hd⟩
  · intro b hb
    rcases List.mem_append.mp hb with hb | hb
    · exact h.fromHistory b hb
    · obtain ⟨hin, hno⟩ := h'.fromHistory b hb
      refine ⟨hin, fun hrow => hno ?_⟩
      rw [h.rows_eq, hasBar_append]
      exact .inl hrow

/-- Storing the missing bars of a page adds them. -/
theorem ofPage (distinct : (page.map (·.tradeDate)).Nodup) (subset : ∀ b ∈ page, b ∈ history) :
    Adds key history rows (rows ++ rowsOf key (missingBars rows key page))
      (missingBars rows key page) :=
  ⟨rfl, nodup_missingBars distinct, fun b hb =>
    ⟨subset b (mem_missingBars.mp hb).1, (mem_missingBars.mp hb).2⟩⟩

theorem hasBar (h : Adds key history rows rows₁ new) (hrow : HasBar rows key day) :
    HasBar rows₁ key day := by
  rw [h.rows_eq, hasBar_append]
  exact .inl hrow

/-- A day with a row keeps it, and a day of the history that has got a row has the one bar of it. -/
theorem barsOn_eq (h : Adds key history rows rows₁ new)
    (distinct : (history.map (·.tradeDate)).Nodup) (hb : b ∈ history)
    (hrow : HasBar rows₁ key b.tradeDate) :
    barsOn rows₁ key b.tradeDate =
      if HasBar rows key b.tradeDate then barsOn rows key b.tradeDate else [b] := by
  rw [h.rows_eq, barsOn_append, barsOn_rowsOf]
  split
  · rename_i hbefore
    rw [List.filter_eq_nil_iff.mpr, List.append_nil]
    intro c hc hday
    have hday : c.tradeDate = b.tradeDate := by simpa using hday
    exact (h.fromHistory c hc).2 (hday ▸ hbefore)
  · rename_i hbefore
    rw [h.rows_eq, hasBar_append, hasBar_rowsOf] at hrow
    obtain ⟨-, hnew⟩ := hrow.resolve_left hbefore
    obtain ⟨c, hc, hday⟩ := List.mem_map.mp hnew
    obtain rfl : c = b :=
      List.inj_on_of_nodup_map distinct (h.fromHistory c hc).1 hb hday
    rw [barsOn_eq_nil_iff.mpr hbefore, List.nil_append, filter_day_eq_singleton h.distinct hc]

end Adds

/-! ### The walk -/

section Walk

variable {σ : Type} {strategy : Strategy} {prices : DailyPrices σ} {store : PriceStore σ}
  {view : TransactionView σ} {key : InstrumentKey} {history : List Bar} {lower : Option Date}
  {limit : Nat} {start last cursor : Date}

/-- Where a walk ends after a page, the page holds all of the window that is not before the start. -/
theorem mem_page_of_nextEnd?_eq_none {page : List Bar}
    (hlimit : fullPage strategy.pageSize ≤ limit)
    (newest : IsNewest limit (historyWindow history lower cursor) page)
    (hnext : (strategy.source prices key).nextEnd? strategy.pageSize start cursor page = none)
    (hpage : page ≠ []) {b : Bar} (hb : b ∈ historyWindow history lower cursor)
    (hstart : start ≤ b.tradeDate) : b ∈ page := by
  rcases PageSource.nextEnd?_eq_none hnext with hshort | hbefore
  · exact newest.mem_of_length_lt (Nat.lt_of_lt_of_le hshort hlimit) hb
  · -- Otherwise the page is full, and no bar of the window is older than its oldest.
    cases holdest : Date.min? (page.map (·.tradeDate)) with
    | none =>
        rw [Date.min?_eq_none_iff, List.map_eq_nil_iff] at holdest
        exact absurd holdest hpage
    | some oldest =>
        refine newest.mem_of_le holdest hb ?_
        have hday : (strategy.source prices key).dayBefore? page = oldest.pred? := by
          unfold PageSource.dayBefore?
          change (Date.min? (page.map (·.tradeDate))).bind _ = _
          rw [holdest]
          rfl
        rw [hday] at hbefore
        rcases hbefore with hfirst | ⟨d, hd, hback | hstop⟩
        · exact Date.le_of_pred?_eq_none hfirst _
        · -- The oldest day of a page is in its window, so the day before it is always back in time.
          obtain ⟨c, hc, hcday⟩ := List.mem_map.mp (Date.min?_mem holdest)
          have hle : oldest ≤ cursor := hcday ▸ (mem_historyWindow.mp (newest.subset c hc)).2.1
          have hlt : oldest < oldest :=
            Date.lt_of_le_of_lt (Date.le_trans hle hback) (Date.pred?_lt hd)
          exact absurd hlt (Date.lt_irrefl _)
        · refine Date.not_lt.mp fun hlt => ?_
          have hle : b.tradeDate ≤ d := (Date.lt_iff_le_pred? hd).mp hlt
          exact Date.lt_irrefl _ (Date.lt_of_le_of_lt (Date.le_trans hstart hle) hstop)

/-- Where a walk goes on, the page holds all of the window that is newer than the next cursor. -/
theorem mem_page_of_nextEnd?_eq_some {page : List Bar} {next : { d : Date // d < cursor }}
    (newest : IsNewest limit (historyWindow history lower cursor) page)
    (hnext : (strategy.source prices key).nextEnd? strategy.pageSize start cursor page = some next)
    {b : Bar} (hb : b ∈ historyWindow history lower cursor) (hnewer : next.val < b.tradeDate) :
    b ∈ page := by
  obtain ⟨-, hday, -⟩ := PageSource.nextEnd?_eq_some_iff.mp hnext
  obtain ⟨oldest, holdest, hpred⟩ := Option.bind_eq_some_iff.mp hday
  refine newest.mem_of_le holdest hb (Date.not_lt.mp fun hlt => ?_)
  have hle := (Date.lt_iff_le_pred? hpred).mp hlt
  exact Date.lt_irrefl _ (Date.lt_of_le_of_lt hle hnewer)

/-- Storing a page adds its missing bars, and leaves no day of it without a row. -/
theorem exec_saveNew_adds {page : List Bar} {s : Session σ} (exact : store.Exact view)
    (key : InstrumentKey) (hopen : view.isOpen s.world)
    (distinct : (page.map (·.tradeDate)).Nodup)
    (subset : ∀ b ∈ page, b ∈ history) :
    let missing := missingBars (view.rows s.world) key page
    ∃ s', (store.saveNew key page).exec s = (.ok missing.length, s') ∧ view.isOpen s'.world ∧
      Adds key history (view.rows s.world) (view.rows s'.world) missing ∧
      ∀ b ∈ page, HasBar (view.rows s'.world) key b.tradeDate := by
  intro missing
  obtain ⟨s', hsave, hopen', hrows⟩ := exec_saveNew exact key hopen distinct
  refine ⟨s', hsave, hopen', ?_, fun b hb => ?_⟩
  · rw [hrows]
    exact Adds.ofPage distinct subset
  · rw [hrows, hasBar_append, hasBar_rowsOf]
    by_cases hrow : HasBar (view.rows s.world) key b.tradeDate
    · exact .inl hrow
    · exact .inr ⟨rfl, List.mem_map_of_mem (mem_missingBars.mpr ⟨hb, hrow⟩)⟩

/-- A walk from a cursor adds bars of the history only, counts them, and leaves no day of the history
from the start to the cursor without a row. -/
theorem walkFrom_complete (distinct : (history.map (·.tradeDate)).Nodup)
    (hlower : ∀ d ∈ lower, d ≤ start) (hlimit : fullPage strategy.pageSize ≤ limit)
    (serves : prices.ServesNewest (.ofAssetType strategy.assetType) key start history lower limit
      view)
    (exact : store.Exact view) (cursor : Date) (progress : WalkProgress) (s : Session σ)
    (hopen : view.isOpen s.world) :
    ∃ new pages s', ((strategy.source prices key).walkFrom (store.saveNew key) strategy.pageSize
        start cursor progress).exec s = (.ok ⟨pages, progress.saved + new.length⟩, s') ∧
      view.isOpen s'.world ∧ Adds key history (view.rows s.world) (view.rows s'.world) new ∧
      ∀ b ∈ history, start ≤ b.tradeDate → b.tradeDate ≤ cursor →
        HasBar (view.rows s'.world) key b.tradeDate := by
  induction cursor using Date.lt_wellFounded.induction generalizing progress s with
  | _ cursor ih =>
  obtain ⟨page, s₁, hask, hopen₁, hrows₁, newest⟩ := serves cursor s hopen
  have hfetch : Attempt.exec ((strategy.source prices key).fetch start cursor) s = (.ok page, s₁) :=
    Attempt.exec_orElseAs_ok.mpr hask
  have hwindow : ∀ b ∈ history, start ≤ b.tradeDate → b.tradeDate ≤ cursor →
      b ∈ historyWindow history lower cursor := fun b hb hstart hcursor =>
    mem_historyWindow.mpr ⟨hb, hcursor, fun d hd => Date.le_trans (hlower d hd) hstart⟩
  by_cases hpage : page = []
  · -- An empty page: the window is empty, for the limit is at least one.
    subst hpage
    refine ⟨[], _, s₁, PageSource.walkFrom_empty hfetch, hopen₁, hrows₁ ▸ Adds.refl _ _ _, ?_⟩
    intro b hb hstart hcursor
    have hmem := newest.mem_of_length_lt
      (Nat.lt_of_lt_of_le (PageSource.one_le_fullPage _) hlimit) (hwindow b hb hstart hcursor)
    cases hmem
  · have hdates : (page.map (·.tradeDate)).Nodup :=
      newest.distinct.map_on fun b hb c hc hday => List.inj_on_of_nodup_map distinct
        (mem_historyWindow.mp (newest.subset b hb)).1
        (mem_historyWindow.mp (newest.subset c hc)).1 hday
    obtain ⟨s₂, hsink, hopen₂, hadds, hstored⟩ := exec_saveNew_adds exact key hopen₁ hdates
      fun b hb => (mem_historyWindow.mp (newest.subset b hb)).1
    rw [hrows₁] at hadds hsink
    cases hnext : (strategy.source prices key).nextEnd? strategy.pageSize start cursor page with
    | none =>
        refine ⟨_, _, _, PageSource.walkFrom_last hfetch hpage hsink hnext, ?_, ?_, ?_⟩
        · rwa [PageSource.world_logNext]
        · rwa [PageSource.world_logNext]
        · intro b hb hstart hcursor
          rw [PageSource.world_logNext]
          exact hstored b (mem_page_of_nextEnd?_eq_none hlimit newest hnext hpage
            (hwindow b hb hstart hcursor) hstart)
    | some next =>
        obtain ⟨new, pages, s', hrun, hopen', hmore, hrest⟩ := ih next.val next.property
          ⟨progress.pages + 1,
            progress.saved + (missingBars (view.rows s.world) key page).length⟩
          (((strategy.source prices key).logNext strategy.pageSize cursor page).exec s₂).2
          (by rwa [PageSource.world_logNext])
        rw [PageSource.world_logNext] at hmore
        refine ⟨missingBars (view.rows s.world) key page ++ new, pages, s', ?_, hopen',
          hadds.trans hmore, ?_⟩
        · rw [PageSource.walkFrom_next hfetch hpage hsink hnext, hrun, List.length_append,
            Nat.add_assoc]
        · intro b hb hstart hcursor
          -- What is newer than the next cursor is on this page, and what is older is still to come.
          by_cases holder : b.tradeDate ≤ next.val
          · exact hrest b hb hstart holder
          · exact hmore.hasBar (hstored b (mem_page_of_nextEnd?_eq_some newest hnext
              (hwindow b hb hstart hcursor) (Date.not_le.mp holder)))

/-- **A backfill is complete.** Inside a transaction of a store that answers exactly, with a broker
that serves the newest bars of a history, a backfill succeeds. It leaves every row as it was, adds
bars of the history only, each on a day without a row, and gives their number; and every day of the
history from the start to the end has its one bar then, or the rows it had before. -/
theorem backfill_stores_history (strategy : Strategy) (i : Instrument) (start last : Date)
    (s : Session σ) (hkey : i.key? = some key)
    (distinct : (history.map (·.tradeDate)).Nodup) (hlower : ∀ d ∈ lower, d ≤ start)
    (hlimit : fullPage strategy.pageSize ≤ limit)
    (serves : prices.ServesNewest (.ofAssetType strategy.assetType) key start history lower limit
      view)
    (exact : store.Exact view) (hopen : view.isOpen s.world) :
    ∃ new s', (strategy.backfill prices store i start last).exec s = (.ok new.length, s') ∧
      view.isOpen s'.world ∧
      view.rows s'.world = view.rows s.world ++ rowsOf key new ∧
      (new.map (·.tradeDate)).Nodup ∧
      (∀ b ∈ new, b ∈ history ∧ ¬ HasBar (view.rows s.world) key b.tradeDate) ∧
      ∀ b ∈ history, start ≤ b.tradeDate → b.tradeDate ≤ last →
        barsOn (view.rows s'.world) key b.tradeDate =
          if HasBar (view.rows s.world) key b.tradeDate then barsOn (view.rows s.world) key b.tradeDate
          else [b] := by
  obtain ⟨new, pages, s₁, hrun, hopen₁, hadds, hall⟩ :=
    walkFrom_complete distinct hlower hlimit serves exact last ⟨0, 0⟩ s hopen
  have hwalk : ((strategy.source prices key).walk (store.saveNew key) strategy.pageSize start
      last).exec s = (.ok ⟨pages, new.length⟩, s₁) := by
    rw [PageSource.walk, hrun, Nat.zero_add]
  have hkeyOf : (Attempt.ofResult (strategy.keyOf i) : Attempt σ CollectError InstrumentKey).exec s =
      (.ok key, s) := by
    rw [Attempt.exec_ofResult, Strategy.keyOf, hkey]
  unfold Strategy.backfill
  rw [Attempt.exec_bind_ok hkeyOf, Attempt.exec_bind_ok hwalk, Attempt.exec_bind, Attempt.exec_ofAct]
  exact ⟨new, _, rfl, hopen₁, hadds.rows_eq, hadds.distinct, hadds.fromHistory,
    fun b hb hstart hlast => hadds.barsOn_eq distinct hb (hall b hb hstart hlast)⟩

end Walk

/-- A broker with three days of history that answers with two at a time, oldest first, and a store
that has a row for the newest of them: the walk asks twice and stores the two other days. -/
theorem backfill_stores_history_of_three_days :
    let day (n : Nat) : Date := ((default : Date).addDays? n).getD default
    let history := [day 3, day 1, day 2].map fun d => Bar.closeOnly d RehearsalMarket.closingPrice
    let key : InstrumentKey := ⟨.domesticStock, "005930", none⟩
    let instrument : Instrument := ⟨1, "005930", none, none, some .domesticStock, false⟩
    let world : RehearsalWorld :=
      { store := RehearsalStore.opened key [day 3]
        market := ⟨2, .oldestFirst, false, [("005930", [day 3, day 1, day 2])], [], [], []⟩
        locks := .empty }
    let rows := world.store.ledger.visible
    ∃ new s', (Strategy.backfill ⟨.domesticStock, 2⟩ (RehearsalMarket.prices RehearsalWorld.marketPart)
        (RehearsalStore.prices RehearsalWorld.storePart) instrument (day 0) (day 9)).exec
          ⟨world, ⟨default, 0⟩, []⟩ = (.ok new.length, s') ∧
      s'.world.store.ledger.visible = rows ++ rowsOf key new ∧
      (new.map (·.tradeDate)).Nodup ∧
      (∀ b ∈ new, b ∈ history ∧ ¬ HasBar rows key b.tradeDate) ∧
      ∀ b ∈ history, day 0 ≤ b.tradeDate → b.tradeDate ≤ day 9 →
        barsOn s'.world.store.ledger.visible key b.tradeDate =
          if HasBar rows key b.tradeDate then barsOn rows key b.tradeDate else [b] := by
  intro day history key instrument world rows
  let knows (w : RehearsalWorld) : Prop := w.market.Knows "005930" [day 3, day 1, day 2] 2
  let view := RehearsalStore.openView RehearsalWorld.storePart knows
  have hopen : view.isOpen world := ⟨rfl, fun _ _ => rfl, rfl, rfl, rfl, rfl⟩
  have keeps (m : RehearsalMarket) (w : RehearsalWorld) (h : view.isOpen w)
      (hknows : m.Knows "005930" [day 3, day 1, day 2] 2) :
      view.isOpen { w with market := m } ∧ view.rows { w with market := m } = view.rows w :=
    ⟨⟨h.1, h.2.1, hknows⟩, rfl⟩
  have serves : (RehearsalMarket.prices RehearsalWorld.marketPart).ServesNewest .domesticStock key
      (day 0) history (some (day 0)) 2 view :=
    RehearsalMarket.servesNewest_prices (by decide) (fun w h => h.2.2) keeps
  have exact : (RehearsalStore.prices RehearsalWorld.storePart).Exact view :=
    RehearsalStore.exact_prices (fun _ _ => rfl) fun _ _ hknows => hknows
  have distinct : (history.map (·.tradeDate)).Nodup := by decide
  obtain ⟨new, s', hrun, -, hrest⟩ := backfill_stores_history ⟨.domesticStock, 2⟩ instrument
    (day 0) (day 9) ⟨world, ⟨default, 0⟩, []⟩ rfl distinct (by simp [Date.le_refl]) (by decide)
    serves exact hopen
  exact ⟨new, s', hrun, hrest⟩

end DailyBars
