import DailyBars.Broker.Endpoint
import DailyBars.Proofs.Calendar.DateOrder
import DailyBars.Proofs.Storage.Rows
import DailyBars.Rehearsal.Market
import Mathlib.Data.List.Perm.Subperm

/-!
# Pages of the newest bars

A broker with a history answers each request with the newest bars of a window, a limited number of
them, in any order. A page that the limit did not cut short holds everything, and every page holds
whatever is as new as its oldest bar. The rehearsal broker is such a broker: a page of it is cut from
the days of the window, sorted from the newest to the oldest, and then put in whatever order.
-/

namespace DailyBars

/-- The bars of a history up to a day, and not before the lower bound if there is one. -/
def historyWindow (history : List Bar) (lower : Option Date) (last : Date) : List Bar :=
  history.filter fun b => decide (b.tradeDate ≤ last) && lower.all fun d => decide (d ≤ b.tradeDate)

/-- A page holds the newest of some bars, as many as the limit allows, in any order. -/
structure IsNewest (limit : Nat) (bars page : List Bar) : Prop where
  distinct : page.Nodup
  subset : ∀ b ∈ page, b ∈ bars
  length_eq : page.length = min limit bars.length
  newer : ∀ b ∈ page, ∀ c ∈ bars, c ∉ page → c.tradeDate < b.tradeDate

section Newest

variable {history bars page : List Bar} {lower : Option Date} {last oldest : Date} {limit : Nat}
  {b c : Bar}

theorem mem_historyWindow :
    b ∈ historyWindow history lower last ↔
      b ∈ history ∧ b.tradeDate ≤ last ∧ ∀ d ∈ lower, d ≤ b.tradeDate := by
  cases lower <;> simp [historyWindow]

/-- A page that the limit did not cut short holds everything. -/
theorem IsNewest.mem_of_length_lt (h : IsNewest limit bars page) (hlt : page.length < limit)
    (hc : c ∈ bars) : c ∈ page := by
  have hsub : page.Subperm bars := h.distinct.subperm h.subset
  have hlength := h.length_eq
  exact (hsub.perm_of_length_le (by omega)).mem_iff.mpr hc

/-- A page leaves out nothing that is as new as its oldest bar. -/
theorem IsNewest.mem_of_le (h : IsNewest limit bars page)
    (holdest : Date.min? (page.map (·.tradeDate)) = some oldest) (hc : c ∈ bars)
    (hle : oldest ≤ c.tradeDate) : c ∈ page := by
  by_contra hnot
  obtain ⟨b, hb, rfl⟩ := List.mem_map.mp (Date.min?_mem holdest)
  exact Date.lt_irrefl _ (Date.lt_of_lt_of_le (h.newer b hb c hc hnot) hle)

end Newest

/-- While the transaction is open, each request from `start` is answered with the newest bars of the
history in its window, and changes nothing that the transaction sees. -/
def DailyPrices.ServesNewest {σ : Type} (prices : DailyPrices σ) (endpoint : Endpoint)
    (key : InstrumentKey) (start : Date) (history : List Bar) (lower : Option Date) (limit : Nat)
    (view : TransactionView σ) : Prop :=
  ∀ (last : Date) (s : Session σ), view.isOpen s.world →
    ∃ page s', (prices endpoint key start last).exec s = (.ok page, s') ∧
      view.isOpen s'.world ∧ view.rows s'.world = view.rows s.world ∧
      IsNewest limit (historyWindow history lower last) page

/-! ### The rehearsal broker -/

/-- Putting a page in order neither adds nor drops anything. -/
theorem PageOrder.perm_arrange {α : Type} (o : PageOrder) (page : List α) :
    (o.arrange page).Perm page := by
  cases o with
  | newestFirst => exact List.Perm.refl _
  | oldestFirst => exact List.reverse_perm _
  | rotated =>
      exact List.perm_append_comm.trans (by rw [List.take_append_drop])

namespace RehearsalMarket

variable {σ : Type} {p : Part σ RehearsalMarket} {days : List Date} {a b : Date} {limit : Nat}
  {code : String}

/-- Days from the newest to the oldest. -/
def newestFirst (days : List Date) : List Date := days.mergeSort fun a b => b ≤ a

theorem mem_newestFirst : a ∈ newestFirst days ↔ a ∈ days := List.mem_mergeSort

theorem pairwise_newestFirst (days : List Date) :
    (newestFirst days).Pairwise fun a b => decide (b ≤ a) := by
  refine List.pairwise_mergeSort ?_ ?_ days
  · intro a b c hab hbc
    simp only [decide_eq_true_eq] at hab hbc ⊢
    exact Date.le_trans hbc hab
  · intro a b
    by_cases h : b ≤ a
    · simp [h]
    · simp [Date.le_of_lt (Date.not_le.mp h)]

/-- The first of the days from the newest to the oldest are newer than the others. -/
theorem lt_of_mem_take_newestFirst (ha : a ∈ (newestFirst days).take limit) (hb : b ∈ days)
    (hnot : b ∉ (newestFirst days).take limit) : b < a := by
  have hsorted := pairwise_newestFirst days
  have hmem : b ∈ newestFirst days := mem_newestFirst.mpr hb
  rw [← List.take_append_drop limit (newestFirst days)] at hsorted hmem
  have hdrop := (List.mem_append.mp hmem).resolve_left hnot
  have hle : b ≤ a := by simpa using (List.pairwise_append.mp hsorted).2.2 a ha b hdrop
  refine Date.not_le.mp fun hge => hnot ?_
  rwa [Date.le_antisymm hle hge]

/-- A broker without failures that has some days of history for a code, and keeps to the window that
it is asked for. -/
structure Knows (m : RehearsalMarket) (code : String) (days : List Date) (limit : Nat) : Prop where
  history : m.history.lookup code = some days
  faults : m.faults = []
  window : m.ignoresWindow = false
  pageSize : m.pageSize = limit

theorem Knows.answer {m : RehearsalMarket} {r : PriceRequest}
    (h : m.Knows r.key.stockCode days limit) :
    (m.answer r).1 = .ok (m.page r) ∧ (m.answer r).2.Knows r.key.stockCode days limit := by
  unfold RehearsalMarket.answer
  simp only [h.faults, List.find?_nil]
  exact ⟨rfl, h.history, rfl, h.window, h.pageSize⟩

/-- A page holds the newest bars of the window. -/
theorem Knows.isNewest_page {m : RehearsalMarket} {r : PriceRequest}
    (h : m.Knows r.key.stockCode days limit) (distinct : days.Nodup) :
    IsNewest limit
      (historyWindow (days.map fun d => Bar.closeOnly d closingPrice) (some r.first) r.last)
      (m.page r) := by
  -- The market works on days and makes bars of them at the end; the order of a page is free.
  let inWindow : List Date := days.filter fun d => decide (r.first ≤ d) && decide (d ≤ r.last)
  let newest := (newestFirst inWindow).take limit
  have hpage : m.page r = (m.order.arrange newest).map fun d => Bar.closeOnly d closingPrice := by
    simp [page, h.history, h.window, h.pageSize, newest, inWindow, newestFirst]
  have hwindow : historyWindow (days.map fun d => Bar.closeOnly d closingPrice) (some r.first)
      r.last = inWindow.map fun d => Bar.closeOnly d closingPrice := by
    simp [historyWindow, inWindow, List.filter_map, Function.comp_def, Bar.closeOnly, Bool.and_comm]
  have hinj : Function.Injective fun d => Bar.closeOnly d closingPrice :=
    fun a b hab => congrArg Bar.tradeDate hab
  have hperm := m.order.perm_arrange newest
  have hdistinct : inWindow.Nodup := distinct.filter _
  have hsub : ∀ d ∈ newest, d ∈ inWindow := fun d hd =>
    mem_newestFirst.mp (List.mem_of_mem_take hd)
  rw [hpage, hwindow]
  refine ⟨?_, ?_, ?_, ?_⟩
  · refine (hperm.nodup_iff.mpr ?_).map hinj
    exact ((List.mergeSort_perm _ _).nodup_iff.mpr hdistinct).sublist (List.take_sublist _ _)
  · intro b hb
    obtain ⟨d, hd, rfl⟩ := List.mem_map.mp hb
    exact List.mem_map_of_mem (hsub d (hperm.mem_iff.mp hd))
  · rw [List.length_map, List.length_map, hperm.length_eq, List.length_take, newestFirst,
      List.length_mergeSort]
  · intro b hb c hc hnot
    obtain ⟨d, hd, rfl⟩ := List.mem_map.mp hb
    obtain ⟨e, he, rfl⟩ := List.mem_map.mp hc
    refine lt_of_mem_take_newestFirst (hperm.mem_iff.mp hd) he fun hin => hnot ?_
    exact List.mem_map_of_mem (hperm.mem_iff.mpr hin)

/-- **A broker without failures serves the newest bars of its history.** -/
theorem servesNewest_prices {view : TransactionView σ} {endpoint : Endpoint} {key : InstrumentKey}
    {start : Date} (distinct : days.Nodup)
    (knows : ∀ w, view.isOpen w → (p.get w).Knows key.stockCode days limit)
    (keeps : ∀ m w, view.isOpen w → m.Knows key.stockCode days limit →
      view.isOpen (p.set m w) ∧ view.rows (p.set m w) = view.rows w) :
    (prices p).ServesNewest endpoint key start (days.map fun d => Bar.closeOnly d closingPrice)
      (some start) limit view := by
  intro last s hopen
  have hknows : (p.get s.world).Knows (PriceRequest.mk endpoint key start last).key.stockCode days
      limit := knows s.world hopen
  obtain ⟨hresult, hafter⟩ := hknows.answer
  let answer := (p.get s.world).answer ⟨endpoint, key, start, last⟩
  have hrun : (prices p endpoint key start last).exec s =
      (answer.1, { s with world := p.set answer.2 s.world }) := rfl
  obtain ⟨hopen', hrows⟩ := keeps answer.2 s.world hopen hafter
  refine ⟨_, { s with world := p.set answer.2 s.world }, ?_, hopen', hrows,
    hknows.isNewest_page distinct⟩
  rw [hrun, hresult]

end RehearsalMarket

end DailyBars
