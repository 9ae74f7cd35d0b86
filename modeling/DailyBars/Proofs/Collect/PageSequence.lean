import DailyBars.Proofs.Collect.Dedup
import DailyBars.Proofs.Recorded
import DailyBars.Proofs.Rehearsal.Store
import DailyBars.Proofs.Storage.Inserts
import Mathlib.Algebra.GroupWithZero.Nat
import Mathlib.Data.Finset.Card
import Mathlib.Data.Finset.Dedup
import Mathlib.Data.List.Infix

/-!
# Storing page after page

Pages may come in any order, overlap each other and what is stored already, and name a day more than
once. Storing page after page inside a transaction comes to inserting all their bars once: what is
given to the store are the bars on days without a row, and of several bars on a new day the first one
counts.
-/

namespace DailyBars

variable {σ : Type}

/-- A call that saves bars. -/
structure SaveCall (σ : Type) where
  /-- The world in which the call is made. -/
  world : σ
  key : InstrumentKey
  bars : List Bar

/-- The store with a record of the calls that save bars. -/
def PriceStore.recorded (store : PriceStore σ) : PriceStore (σ × List (SaveCall σ)) where
  begin := store.begin.unrecorded
  existingDates key first last := (store.existingDates key first last).unrecorded
  saveAll key bars := (store.saveAll key bars).recorded fun world _ => ⟨world, key, bars⟩
  markCompleted id := (store.markCompleted id).unrecorded
  commit := store.commit.unrecorded
  rollback := store.rollback.unrecorded

/-! ### What is inserted -/

section Days

variable {rows : List StoredBar} {key other : InstrumentKey} {bars : List Bar} {day : Date}
  {pages earlier : List (List Bar)} {page : List Bar}

/-- One row is inserted for each day of the bars that has none yet. -/
theorem length_absentRows : (absentRows rows key bars).length =
    ((bars.map (·.tradeDate)).toFinset.filter fun day => ¬ HasBar rows key day).card := by
  induction bars generalizing rows with
  | nil => rfl
  | cons b rest ih =>
      rw [absentRows, List.map_cons, List.toFinset_cons]
      by_cases hrow : HasBar rows key b.tradeDate
      · rw [if_pos hrow, ih, Finset.filter_insert, if_neg (not_not.mpr hrow)]
      · -- The day of the bar is new, and has a row when the others are inserted.
        have hinsert : ((insert b.tradeDate (rest.map (·.tradeDate)).toFinset).filter fun day =>
              ¬ HasBar rows key day) =
            insert b.tradeDate ((rest.map (·.tradeDate)).toFinset.filter fun day =>
              ¬ HasBar (rows ++ [⟨key, b⟩]) key day) := by
          ext day
          by_cases hday : day = b.tradeDate
          · subst hday
            simp [hrow]
          · have hday' : ¬ b.tradeDate = day := fun h => hday h.symm
            simp [hasBar_singleton, hday, hday']
        rw [if_neg hrow, List.length_cons, ih, hinsert, Finset.card_insert_of_notMem]
        simp [hasBar_singleton]

/-- The bars of a page on days that have no row and are on none of the earlier pages. -/
def newBars (rows : List StoredBar) (key : InstrumentKey) (earlier : List (List Bar))
    (page : List Bar) : List Bar :=
  page.filter fun b =>
    !decide (HasBar rows key b.tradeDate) && !(earlier.flatten.map (·.tradeDate)).contains b.tradeDate

theorem newBars_nil : newBars rows key [] page = missingBars rows key page := by
  simp [newBars, missingBars]

/-- What is new after a page has been inserted is what is new after this page and the earlier ones. -/
theorem newBars_append_absentRows (first : List Bar) :
    newBars (rows ++ absentRows rows key first) key earlier page =
      newBars rows key (first :: earlier) page := by
  refine List.filter_congr fun b _ => ?_
  rw [Bool.eq_iff_iff]
  simp only [hasBar_append_absentRows, List.flatten_cons, List.map_append, List.contains_eq_mem,
    List.mem_append, true_and, Bool.and_eq_true, Bool.not_eq_true', decide_eq_false_iff_not, not_or]
  exact and_assoc

/-- What is new of each page, but for pages without anything new. -/
def newPages (rows : List StoredBar) (key : InstrumentKey) (pages : List (List Bar)) :
    List (List Bar) :=
  ((pages.inits.zip pages).map fun p => newBars rows key p.1 p.2).filter fun bars => !bars.isEmpty

theorem newPages_cons : newPages rows key (page :: pages) =
    ([missingBars rows key page].filter fun bars => !bars.isEmpty) ++
      newPages (rows ++ absentRows rows key page) key pages := by
  have hrest : ((pages.inits.map (page :: ·)).zip pages).map (fun p => newBars rows key p.1 p.2) =
      (pages.inits.zip pages).map
        fun p => newBars (rows ++ absentRows rows key page) key p.1 p.2 := by
    rw [List.zip_map_left, List.map_map]
    exact List.map_congr_left fun p _ => (newBars_append_absentRows page).symm
  rw [newPages, List.inits_cons, List.zip_cons_cons, List.map_cons, newBars_nil, hrest,
    ← List.singleton_append, List.filter_append]
  rfl

end Days

/-! ### A page -/

namespace PriceStore

variable {store : PriceStore σ} {view : TransactionView σ} {key : InstrumentKey}
  {page fresh : List Bar} {pages : List (List Bar)} {s : Session σ}

/-- The calls that save some bars in a world: one, unless there is no bar. -/
def callsFor (key : InstrumentKey) (world : σ) (bars : List Bar) : List (SaveCall σ) :=
  if bars.isEmpty then [] else [⟨world, key, bars⟩]

theorem map_bars_callsFor (world : σ) (bars : List Bar) :
    (callsFor key world bars).map (·.bars) = [bars].filter fun bars => !bars.isEmpty := by
  cases bars <;> rfl

theorem mem_callsFor {world : σ} {bars : List Bar} {call : SaveCall σ} :
    call ∈ callsFor key world bars ↔ bars ≠ [] ∧ call = ⟨world, key, bars⟩ := by
  cases bars <;> simp [callsFor]

/-- What is left over of a page is inserted and counted. -/
theorem exec_saveFresh_inserting (inserting : store.Inserting view) (key : InstrumentKey)
    (fetched : Nat) (fresh : List Bar) (hopen : view.isOpen s.world) :
    let added := absentRows (view.rows s.world) key fresh
    ∃ s', (store.saveFresh key fetched fresh).exec s = (.ok added.length, s') ∧
      view.isOpen s'.world ∧ view.rows s'.world = view.rows s.world ++ added := by
  unfold saveFresh
  cases fresh with
  | nil => exact ⟨_, rfl, hopen, (List.append_nil _).symm⟩
  | cons b rest =>
      obtain ⟨s₁, hsave, hopen₁, hrows⟩ := inserting.saveAll key (b :: rest) s hopen
      rw [if_neg (by simp), Attempt.exec_bind_ok (Attempt.exec_orElseAs_ok.mpr hsave)]
      exact ⟨_, rfl, hopen₁, hrows⟩

/-- What is left over of a page is given to the store in one call, if it is anything. -/
theorem records_saveFresh (inserting : store.Inserting view) (fetched : Nat) (fresh : List Bar)
    (hopen : view.isOpen s.world) :
    (store.saveFresh key fetched fresh).Records (store.recorded.saveFresh key fetched fresh) s
      (callsFor key s.world fresh) := by
  unfold saveFresh callsFor
  split
  · exact (Attempt.Records.emit ..).bind (Attempt.exec_ofAct ..) (.pure ..)
  · obtain ⟨s₁, hsave, -, -⟩ := inserting.saveAll key fresh s hopen
    have hrecord : (store.saveAll key fresh).Records (store.recorded.saveAll key fresh) s
        [⟨s.world, key, fresh⟩] := .recorded _ (fun world _ => SaveCall.mk world key fresh) s
    exact (hrecord.orElseAs _).bind (Attempt.exec_orElseAs_ok.mpr hsave)
      ((Attempt.Records.emit ..).bind (Attempt.exec_ofAct ..) (.pure ..))

/-- **Storing a page** inserts the bars of it on days without a row, the first one for each day. They
are given to the store as they come, if there are any. -/
theorem exec_saveNew_inserting (inserting : store.Inserting view) (key : InstrumentKey)
    (page : List Bar) (hopen : view.isOpen s.world) :
    let added := absentRows (view.rows s.world) key page
    ∃ s' world, (store.saveNew key page).exec s = (.ok added.length, s') ∧
      (store.saveNew key page).Records (store.recorded.saveNew key page) s
        (callsFor key world (missingBars (view.rows s.world) key page)) ∧
      view.rows world = view.rows s.world ∧
      view.isOpen s'.world ∧ view.rows s'.world = view.rows s.world ++ added := by
  have hmissing : absentRows (view.rows s.world) key (missingBars (view.rows s.world) key page) =
      absentRows (view.rows s.world) key page :=
    absentRows_filter fun b _ hleft => by simpa using hleft
  rw [← hmissing]
  unfold saveNew
  cases hmin : Date.min? (page.map (·.tradeDate)) with
  | none =>
      obtain rfl : page = [] := List.map_eq_nil_iff.mp (Date.min?_eq_none_iff.mp hmin)
      exact ⟨s, s.world, rfl, .pure .., rfl, hopen, (List.append_nil _).symm⟩
  | some oldest =>
      cases hmax : Date.max? (page.map (·.tradeDate)) with
      | none =>
          rw [Date.max?_eq_none_iff.mp hmax] at hmin
          cases hmin
      | some newest =>
          obtain ⟨days, s₁, hask, hopen₁, hrows₁, hdays⟩ :=
            inserting.existingDates key oldest newest s hopen
          obtain ⟨s', hsave, hopen', hrows'⟩ := exec_saveFresh_inserting inserting key
            page.length (missingBars (view.rows s.world) key page) hopen₁
          rw [hrows₁] at hsave hrows'
          have hask' : ((store.existingDates key oldest newest).orElseAs CollectError.storage).exec s =
              (.ok days, s₁) := Attempt.exec_orElseAs_ok.mpr hask
          refine ⟨s', s₁.world, ?_, ?_, hrows₁, hopen', hrows'⟩
          · dsimp only
            rw [hmin, hmax, Attempt.exec_bind_ok hask', freshBars_eq_missingBars hmin hmax hdays]
            exact hsave
          · dsimp only
            rw [hmin, hmax, ← freshBars_eq_missingBars hmin hmax hdays]
            exact ((Attempt.Records.unrecorded ..).orElseAs _).bind hask'
              (records_saveFresh inserting _ _ hopen₁)

/-! ### Page after page -/

/-- Stores the new bars of page after page, and gives the number of rows stored of each. -/
def saveEach (store : PriceStore σ) (key : InstrumentKey) (pages : List (List Bar)) :
    Attempt σ CollectError (List Nat) :=
  pages.mapM (store.saveNew key)

/-- What has become of some pages that were stored one after the other. -/
structure PagesSaved (view : TransactionView σ) (key : InstrumentKey) (pages : List (List Bar))
    (before after : σ) (counts : List Nat) (calls : List (SaveCall σ)) : Prop where
  /-- Nothing is saved without bars, and no bar of a day with a row at the time of the call. -/
  onlyNew : ∀ call ∈ calls, call.key = key ∧ call.bars ≠ [] ∧
    ∀ b ∈ call.bars, ¬ HasBar (view.rows call.world) key b.tradeDate
  /-- What is saved is what is new of each page, in the order of the page. -/
  savedBars : calls.map (·.bars) = newPages (view.rows before) key pages
  /-- The rows are those from before, and further ones after them. -/
  kept : view.rows before <+: view.rows after
  /-- The days with a row are those from before and, for the key, those of the pages. -/
  days : ∀ other day, HasBar (view.rows after) other day ↔
    HasBar (view.rows before) other day ∨ other = key ∧ ∃ page ∈ pages, ∃ b ∈ page, b.tradeDate = day
  /-- A day with a row keeps its bars, and a new day has the first bar of the pages for it. -/
  bars : ∀ other day, barsOn (view.rows after) other day =
    if HasBar (view.rows before) other day then barsOn (view.rows before) other day
    else if other = key then (pages.flatten.find? fun b => b.tradeDate == day).toList else []
  /-- There is one count for each page, and together they are the number of new days. -/
  counted : counts.length = pages.length ∧ counts.sum =
    ((pages.flatten.map (·.tradeDate)).toFinset.filter fun day =>
      ¬ HasBar (view.rows before) key day).card

/-- What storing page after page inserts, counts and gives to the store. -/
theorem exec_saveEach (inserting : store.Inserting view) (key : InstrumentKey)
    (pages : List (List Bar)) (hopen : view.isOpen s.world) :
    let added := absentRows (view.rows s.world) key pages.flatten
    ∃ counts s' calls, (store.saveEach key pages).exec s = (.ok counts, s') ∧
      (store.saveEach key pages).Records (store.recorded.saveEach key pages) s calls ∧
      view.rows s'.world = view.rows s.world ++ added ∧ counts.length = pages.length ∧
      counts.sum = added.length ∧ calls.map (·.bars) = newPages (view.rows s.world) key pages ∧
      ∀ call ∈ calls, call.key = key ∧ call.bars ≠ [] ∧
        ∀ b ∈ call.bars, ¬ HasBar (view.rows call.world) key b.tradeDate := by
  unfold saveEach
  induction pages generalizing s with
  | nil => exact ⟨[], s, [], rfl, .pure .., by simp [absentRows], rfl, rfl, rfl, by simp⟩
  | cons page rest ih =>
      obtain ⟨s₁, world, hsave, hrecords, hworld, hopen₁, hrows₁⟩ :=
        exec_saveNew_inserting inserting key page hopen
      obtain ⟨counts, s', calls, hrest, hrecords', hrows', hlength, hsum, hbars, honly⟩ := ih hopen₁
      rw [hrows₁] at hrows' hsum hbars
      rw [List.mapM_cons, List.mapM_cons, List.flatten_cons, absentRows_append, newPages_cons]
      refine ⟨(absentRows (view.rows s.world) key page).length :: counts, s',
        callsFor key world (missingBars (view.rows s.world) key page) ++ calls,
        ?_, ?_, ?_, ?_, ?_, ?_, ?_⟩
      · rw [Attempt.exec_bind_ok hsave, Attempt.exec_bind_ok hrest]
        rfl
      · rw [← List.append_nil calls]
        exact hrecords.bind hsave (hrecords'.bind hrest (.pure ..))
      · rw [hrows', List.append_assoc]
      · rw [List.length_cons, List.length_cons, hlength]
      · rw [List.sum_cons, List.length_append, hsum]
      · rw [List.map_append, hbars, map_bars_callsFor]
      · intro call hcall
        rcases List.mem_append.mp hcall with hcall | hcall
        · obtain ⟨hne, rfl⟩ := mem_callsFor.mp hcall
          refine ⟨rfl, hne, fun b hb => ?_⟩
          rw [hworld]
          exact (mem_missingBars.mp hb).2
        · exact honly call hcall

/-- **Storing page after page** succeeds, and neither stores a bar of a day that has a row nor loses
one of a day that has none. -/
theorem saveEach_saves (inserting : store.Inserting view) (key : InstrumentKey)
    (pages : List (List Bar)) (hopen : view.isOpen s.world) :
    ∃ counts s' calls, (store.saveEach key pages).exec s = (.ok counts, s') ∧
      (store.recorded.saveEach key pages).exec (s.withRecord []) = (.ok counts, s'.withRecord calls) ∧
      PagesSaved view key pages s.world s'.world counts calls := by
  obtain ⟨counts, s', calls, hsave, hrecords, hrows, hlength, hsum, hbars, honly⟩ :=
    exec_saveEach inserting key pages hopen
  refine ⟨counts, s', calls, hsave, ?_, honly, hbars, ?_, fun other day => ?_, fun other day => ?_,
    hlength, ?_⟩
  · rw [hrecords.exec, hsave]
    rfl
  · exact ⟨_, hrows.symm⟩
  · rw [hrows, hasBar_append_absentRows]
    simp
  · rw [hrows, barsOn_append_absentRows]
  · rw [hsum, length_absentRows]

/-- A store with a row for one of three days, and pages that name each day more than once: each of
the other two days gets the first bar for it. -/
theorem saveEach_saves_three_days :
    let day (n : Nat) : Date := ((default : Date).addDays? n).getD default
    let one : Decimal := { negative := false, mantissa := 1, scale := 0 }
    let first (n : Nat) := Bar.closeOnly (day n) one
    let repeated (n : Nat) := Bar.closeOnly (day n) .zero
    let key : InstrumentKey := ⟨.domesticStock, "005930", none⟩
    let world := RehearsalStore.ofLedger (Ledger.begin ⟨[], [⟨key, first 3⟩], none⟩)
    let part : Part RehearsalStore RehearsalStore := ⟨id, fun store _ => store⟩
    let pages := [[first 5, repeated 3, repeated 5], [], [repeated 3, repeated 5, first 1]]
    ∃ counts s' calls, ((RehearsalStore.prices part).saveEach key pages).exec
        ⟨world, ⟨default, 0⟩, []⟩ = (.ok counts, s') ∧
      PagesSaved (RehearsalStore.countingView part) key pages world s'.world counts calls ∧
      calls.map (·.bars) = [[first 5, repeated 5], [first 1]] ∧ counts.sum = 2 ∧
      barsOn s'.world.ledger.visible key (day 5) = [first 5] := by
  intro day one first repeated key world part pages
  have inserting : (RehearsalStore.prices part).Inserting (RehearsalStore.countingView part) :=
    RehearsalStore.inserting_prices fun _ _ => rfl
  have hopen : (RehearsalStore.countingView part).isOpen world := ⟨rfl, fun _ _ => rfl, rfl⟩
  obtain ⟨counts, s', calls, hsave, -, hsaved⟩ :=
    saveEach_saves inserting key pages (s := ⟨world, ⟨default, 0⟩, []⟩) hopen
  refine ⟨counts, s', calls, hsave, hsaved, hsaved.savedBars.trans (by decide),
    hsaved.counted.2.trans (by decide), (hsaved.bars key (day 5)).trans (by decide)⟩

end PriceStore

end DailyBars
