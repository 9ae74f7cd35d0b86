import DailyBars.Proofs.Collect.Atomicity
import DailyBars.Proofs.Storage.Inserts
import DailyBars.Rehearsal.Collector

/-!
# The rehearsal store keeps its promises

A call that the plan lets pass is answered by the ledger, and one that fails changes nothing. So a
rehearsal store is one with transactions, whatever its plan, and without failures it answers exactly
while a transaction is open. If it does not count the bars that were there already either, it inserts
bars of all days.
-/

namespace DailyBars.RehearsalStore

variable {σ α : Type} {p : Part σ RehearsalStore} {c : RehearsalStore → StoreCall}
  {answer : RehearsalStore → Ledger → α × Ledger} {s : Session σ}

/-- The store after a call that was answered. -/
def answered (store : RehearsalStore) (c : StoreCall) (l : Ledger) : RehearsalStore :=
  { store with calls := store.calls ++ [c], ledger := l }

/-- A call that the plan lets pass is answered by the ledger. -/
theorem exec_callIn_of_plan
    (h : (p.get s.world).plan (p.get s.world).calls.length (c (p.get s.world)) = none) :
    (callIn p c answer).exec s =
      (.ok (answer (p.get s.world) (p.get s.world).ledger).1,
        { s with world :=
            p.set ((p.get s.world).answered (c (p.get s.world))
              (answer (p.get s.world) (p.get s.world).ledger).2) s.world }) := by
  have hcall : (p.get s.world).call (c (p.get s.world)) (answer (p.get s.world)) =
      (.ok (answer (p.get s.world) (p.get s.world).ledger).1,
        (p.get s.world).answered (c (p.get s.world))
          (answer (p.get s.world) (p.get s.world).ledger).2) := by
    simp only [call, h, answered]
  unfold callIn
  rw [Attempt.exec_mk, Act.exec_onPart, hcall]

/-- A call that fails by the plan leaves the ledger as it is. -/
theorem exec_callIn_of_plan_eq_some {e : StorageError}
    (h : (p.get s.world).plan (p.get s.world).calls.length (c (p.get s.world)) = some e) :
    (callIn p c answer).exec s =
      (.error e,
        { s with world :=
            p.set ((p.get s.world).answered (c (p.get s.world)) (p.get s.world).ledger) s.world }) := by
  have hcall : (p.get s.world).call (c (p.get s.world)) (answer (p.get s.world)) =
      (.error e, (p.get s.world).answered (c (p.get s.world)) (p.get s.world).ledger) := by
    simp only [call, h, answered]
  unfold callIn
  rw [Attempt.exec_mk, Act.exec_onPart, hcall]

/-- A call that succeeds was answered by the ledger. -/
theorem callIn_ok {a : α} {s' : Session σ} (h : (callIn p c answer).exec s = (.ok a, s')) :
    a = (answer (p.get s.world) (p.get s.world).ledger).1 ∧
      s'.world = p.set ((p.get s.world).answered (c (p.get s.world))
        (answer (p.get s.world) (p.get s.world).ledger).2) s.world := by
  cases hplan : (p.get s.world).plan (p.get s.world).calls.length (c (p.get s.world)) with
  | some e =>
      rw [exec_callIn_of_plan_eq_some hplan] at h
      cases h
  | none =>
      rw [exec_callIn_of_plan hplan] at h
      cases h
      exact ⟨rfl, rfl⟩

/-- The existing dates, if they are given, are those of the ledger. -/
theorem existingDates_ok {key : InstrumentKey} {first last : Date} {days : List Date}
    {s' : Session σ} (h : ((prices p).existingDates key first last).exec s = (.ok days, s')) :
    days = (p.get s.world).ledger.existingDates key first last ∧
      s'.world = p.set ((p.get s.world).answered (.existingDates key first last)
        (p.get s.world).ledger) s.world := by
  dsimp only [prices] at h
  exact callIn_ok h

/-- Saving bars that succeeds inserts them in the ledger. -/
theorem saveAll_ok {key : InstrumentKey} {bars : List Bar} {saved : Nat} {s' : Session σ}
    (h : ((prices p).saveAll key bars).exec s = (.ok saved, s')) :
    saved = (if (p.get s.world).countsRepeats then bars.length
      else ((p.get s.world).ledger.insert key bars).1) ∧
      s'.world = p.set ((p.get s.world).answered (.saveAll key bars)
        ((p.get s.world).ledger.insert key bars).2) s.world := by
  dsimp only [prices] at h
  exact callIn_ok h

/-! ### Transactions -/

/-- What the store holds. -/
def ledgerOf (p : Part σ RehearsalStore) (w : σ) : Ledger := (p.get w).ledger

/-- What a call does to the ledger, and that it does nothing if it fails. -/
theorem callIn_cases (lawful : p.Lawful) (c : RehearsalStore → StoreCall)
    (answer : RehearsalStore → Ledger → α × Ledger) (s : Session σ) :
    (∃ e s', (callIn p c answer).exec s = (.error e, s') ∧
      ledgerOf p s'.world = ledgerOf p s.world) ∨
    ∃ a s', (callIn p c answer).exec s = (.ok a, s') ∧
      ledgerOf p s'.world = (answer (p.get s.world) (ledgerOf p s.world)).2 := by
  cases h : (p.get s.world).plan (p.get s.world).calls.length (c (p.get s.world)) with
  | some e =>
      refine .inl ⟨e, _, exec_callIn_of_plan_eq_some h, ?_⟩
      unfold ledgerOf
      rw [lawful]
      rfl
  | none =>
      refine .inr ⟨_, _, exec_callIn_of_plan h, ?_⟩
      unfold ledgerOf
      rw [lawful]
      rfl

theorem changesBy_callIn (lawful : p.Lawful) {change : Ledger → Ledger → Prop}
    (hchange : ∀ store l, change l (answer store l).2) :
    (callIn p c answer).ChangesBy (ledgerOf p) change := by
  refine ⟨?_, ?_⟩
  · intro s a s' h
    rcases callIn_cases lawful c answer s with ⟨e, s₁, hrun, -⟩ | ⟨a₁, s₁, hrun, hledger⟩
    · cases h.symm.trans hrun
    · cases h.symm.trans hrun
      rw [hledger]
      exact hchange _ _
  · intro s e s' h
    rcases callIn_cases lawful c answer s with ⟨e₁, s₁, hrun, hledger⟩ | ⟨a, s₁, hrun, -⟩
    · cases h.symm.trans hrun
      rw [hledger]
    · cases h.symm.trans hrun

/-- Counting a call leaves the ledger as it is. -/
theorem changesBy_count (lawful : p.Lawful) (count : RehearsalStore → RehearsalStore)
    (hcount : ∀ store, (count store).ledger = store.ledger) {change : Ledger → Ledger → Prop}
    {x : Attempt σ StorageError α} (hx : x.ChangesBy (ledgerOf p) change) :
    Attempt.ChangesBy (ledgerOf p) change
      (do Attempt.ofAct (Act.onPart p fun s => ((), count s)); x) := by
  have hkept (s : Session σ) :
      ledgerOf p (Act.exec (Act.onPart p fun s => ((), count s)) s).2.world = ledgerOf p s.world := by
    rw [Act.exec_onPart]
    unfold ledgerOf
    rw [lawful, hcount]
  refine ⟨?_, ?_⟩
  · intro s a s' h
    rw [Attempt.exec_bind, Attempt.exec_ofAct] at h
    rw [← hkept s]
    exact hx.ok _ a s' h
  · intro s e s' h
    rw [Attempt.exec_bind, Attempt.exec_ofAct] at h
    rw [hx.error _ e s' h, hkept]

/-- **A rehearsal store has transactions**, whichever calls its plan makes fail. -/
theorem transactional_prices (lawful : p.Lawful) : (prices p).Transactional (ledgerOf p) where
  begin := by
    dsimp only [prices]
    refine changesBy_count lawful countTransaction (fun _ => rfl) ?_
    exact changesBy_callIn lawful fun _ _ => rfl
  existingDates key first last := by
    dsimp only [prices]
    exact changesBy_callIn lawful fun _ _ => rfl
  saveAll key bars := by
    dsimp only [prices]
    exact changesBy_callIn lawful fun _ l => Ledger.drafted_insert key bars l
  markCompleted id := by
    dsimp only [prices]
    exact changesBy_callIn lawful fun _ _ => rfl
  commit := by
    dsimp only [prices]
    exact changesBy_callIn lawful fun _ _ => rfl
  rollback s := by
    unfold ledgerOf
    dsimp only [prices]
    rw [Act.exec_onPart, lawful]
    rfl

theorem actsOn_findPage (lawful : p.Lawful) (completed : Bool) (after : Option Int) (limit : Nat) :
    ((watchlist p).findPage completed after limit).ActsOn (ledgerOf p) id := by
  dsimp only [watchlist]
  refine changesBy_count lawful countQuery (fun _ => rfl) ?_
  exact changesBy_callIn lawful fun _ _ => rfl

/-- A page of the watchlist is the one that the ledger has. -/
theorem findPage_ok (lawful : p.Lawful) {completed : Bool} {after : Option Int} {limit : Nat}
    {page : List Instrument} {s' : Session σ}
    (h : ((watchlist p).findPage completed after limit).exec s = (.ok page, s')) :
    page = (ledgerOf p s.world).findPage completed after limit := by
  dsimp only [watchlist] at h
  rw [Attempt.exec_bind, Attempt.exec_ofAct] at h
  obtain ⟨hpage, -⟩ := callIn_ok h
  rw [hpage, Act.exec_onPart, lawful]
  rfl

/-- Without failures in the plan the watchlist answers every question. -/
theorem exists_findPage (lawful : p.Lawful) (hplan : ∀ n c, (p.get s.world).plan n c = none)
    (completed : Bool) (after : Option Int) (limit : Nat) :
    ∃ page s', ((watchlist p).findPage completed after limit).exec s = (.ok page, s') := by
  dsimp only [watchlist]
  rw [Attempt.exec_bind, Attempt.exec_ofAct]
  refine ⟨_, _, exec_callIn_of_plan ?_⟩
  rw [Act.exec_onPart, lawful]
  exact hplan _ _

/-! ### Exact answers -/

/-- The transaction of a store that never fails; `also` is what else holds of the world while the
transaction is open. -/
def openView (p : Part σ RehearsalStore) (also : σ → Prop) : TransactionView σ where
  isOpen w := (p.get w).ledger.draft.isSome ∧ (∀ n c, (p.get w).plan n c = none) ∧ also w
  rows w := (p.get w).ledger.visible

/-- **A store that never fails answers exactly.** -/
theorem exact_prices {also : σ → Prop} (lawful : p.Lawful)
    (keeps : ∀ store w, also w → also (p.set store w)) :
    (prices p).Exact (openView p also) where
  existingDates key first last s hopen := by
    obtain ⟨hdraft, hplan, hrest⟩ := hopen
    dsimp only [prices]
    rw [exec_callIn_of_plan (hplan _ _)]
    refine ⟨_, _, rfl, ⟨?_, ?_, keeps _ _ hrest⟩, ?_, fun d => Ledger.mem_existingDates⟩
    · rw [lawful]
      exact hdraft
    · rw [lawful]
      exact hplan
    · dsimp only [openView]
      rw [lawful]
      rfl
  saveAll key bars s hopen distinct missing := by
    obtain ⟨hdraft, hplan, hrest⟩ := hopen
    dsimp only [prices]
    rw [exec_callIn_of_plan (hplan _ _)]
    dsimp only
    rw [Ledger.insert_eq_addRows hdraft distinct missing, ite_self]
    refine ⟨_, rfl, ⟨?_, ?_, keeps _ _ hrest⟩, ?_⟩
    · rw [lawful]
      exact (Ledger.isSome_draft_addRows _ _).trans hdraft
    · rw [lawful]
      exact hplan
    · dsimp only [openView]
      rw [lawful]
      exact Ledger.visible_addRows hdraft _

/-- The transaction of a store that never fails and counts a bar only if it inserts it. -/
def countingView (p : Part σ RehearsalStore) : TransactionView σ :=
  openView p fun w => (p.get w).countsRepeats = false

/-- A rehearsal store that never fails inserts each bar on a day without a row. -/
theorem inserting_prices (lawful : p.Lawful) :
    (prices p).Inserting (countingView p) where
  existingDates key first last s hopen := by
    obtain ⟨hdraft, hplan, hcounts⟩ := hopen
    dsimp only [prices]
    rw [exec_callIn_of_plan (hplan _ _)]
    refine ⟨_, _, rfl, ⟨?_, ?_, ?_⟩, ?_, fun d => Ledger.mem_existingDates⟩
    · rw [lawful]
      exact hdraft
    · rw [lawful]
      exact hplan
    · change (p.get (p.set _ _)).countsRepeats = false
      rw [lawful]
      exact hcounts
    · dsimp only [countingView, openView]
      rw [lawful]
      rfl
  saveAll key bars s hopen := by
    obtain ⟨hdraft, hplan, hcounts⟩ := hopen
    dsimp only [prices]
    rw [exec_callIn_of_plan (hplan _ _)]
    dsimp only
    rw [Ledger.insert_eq_absentRows hdraft, hcounts]
    refine ⟨_, rfl, ⟨?_, ?_, ?_⟩, ?_⟩
    · rw [lawful]
      exact (Ledger.isSome_draft_addRows _ _).trans hdraft
    · rw [lawful]
      exact hplan
    · change (p.get (p.set _ _)).countsRepeats = false
      rw [lawful]
      exact hcounts
    · dsimp only [countingView, openView]
      rw [lawful]
      exact Ledger.visible_addRows hdraft _

end DailyBars.RehearsalStore

namespace DailyBars.RehearsalWorld

/-- **A rehearsal batch works on a store with transactions**, whatever its plan of failures. -/
theorem transactional_batch (strategies : Strategies) (config : BatchConfig) :
    (batch strategies config).Transactional (RehearsalStore.ledgerOf storePart) where
  store := RehearsalStore.transactional_prices fun _ _ => rfl
  prices endpoint key first last := by
    refine ⟨?_, ?_⟩
    · intro s page s' h
      obtain ⟨-, rfl⟩ := Prod.mk.inj h
      rfl
    · intro s e s' h
      obtain ⟨-, rfl⟩ := Prod.mk.inj h
      rfl
  findPage := RehearsalStore.actsOn_findPage fun _ _ => rfl

end DailyBars.RehearsalWorld
