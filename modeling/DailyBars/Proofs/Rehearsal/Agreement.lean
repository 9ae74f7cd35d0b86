import DailyBars.Proofs.Collect.Agreement
import DailyBars.Proofs.Rehearsal.Faithful
import DailyBars.Proofs.Storage.Separation

/-!
# Rehearsals that behave alike

Two rehearsals behave the same for an instrument if nothing fails for it in either, the brokers have
the same pages for its code, and the same is committed for it. All else may be different: the history
of other codes and their faults, other rows, and whatever was asked before.
-/

namespace DailyBars.RehearsalWorld

variable {i : Instrument} {w w' : RehearsalWorld} {s s' : Session RehearsalWorld} {α : Type}

/-- The questions that the broker was asked. -/
def requestsOf (w : RehearsalWorld) : List PriceRequest := w.market.requests

/-- A rehearsal broker keeps a record of its questions. -/
theorem records_batch (strategies : Strategies) (config : BatchConfig) :
    (batch strategies config).Records requestsOf := by
  have call {α : Type} (c : RehearsalStore → StoreCall)
      (answer : RehearsalStore → Ledger → α × Ledger) (s : Session RehearsalWorld) :
      requestsOf ((RehearsalStore.callIn storePart c answer).exec s).2.world =
        requestsOf s.world := by
    obtain ⟨l, hexec⟩ := RehearsalStore.exec_callIn_snd storePart c answer s
    rw [hexec]
    rfl
  refine ⟨fun endpoint key first last s => ?_, fun s => ?_, fun _ _ _ => call _ _,
    fun _ _ => call _ _, fun _ => call _ _, call _ _, fun _ => rfl⟩
  · obtain ⟨answered, hanswer⟩ := s.world.market.answer_snd ⟨endpoint, key, first, last⟩
    change requestsOf { s.world with market := (s.world.market.answer _).2 } = _
    rw [hanswer]
    rfl
  · dsimp only [batch, RehearsalStore.prices]
    rw [Attempt.exec_bind, Attempt.exec_ofAct]
    exact call _ _ _

/-- Nothing fails for the instrument. -/
structure IsUpFor (i : Instrument) (w : RehearsalWorld) : Prop where
  plan : ∀ n c, w.store.plan n c = none
  faultless : ∀ f ∈ w.market.faults, f.code ≠ i.stockCode

/-- Nothing fails for the instrument in either world, and the same is known and committed for it. -/
structure AlikeFor (i : Instrument) (w w' : RehearsalWorld) : Prop where
  isUp : IsUpFor i w
  isUp' : IsUpFor i w'
  page : ∀ r, r.key.stockCode = i.stockCode → w.market.page r = w'.market.page r
  counts : w.store.countsRepeats = w'.store.countsRepeats
  entry : w.store.ledger.entryOf i = w'.store.ledger.entryOf i

/-- Two worlds whose stores never fail, and whose brokers have the same pages and fail for the code of
`x` alone. -/
structure FaultyFor (x : Instrument) (w w' : RehearsalWorld) : Prop where
  plan : ∀ n c, w.store.plan n c = none
  plan' : ∀ n c, w'.store.plan n c = none
  counts : w.store.countsRepeats = w'.store.countsRepeats
  page : ∀ r, w.market.page r = w'.market.page r
  faults : ∀ f ∈ w.market.faults, f.code = x.stockCode
  faults' : ∀ f ∈ w'.market.faults, f.code = x.stockCode

namespace FaultyFor

variable {x : Instrument} {w₁ w₁' : RehearsalWorld}

theorem ofSetUp (h : FaultyFor x w w') (hsetUp : SetUpAs w w₁) (hsetUp' : SetUpAs w' w₁') :
    FaultyFor x w₁ w₁' where
  plan := hsetUp.plan ▸ h.plan
  plan' := hsetUp'.plan ▸ h.plan'
  counts := hsetUp.counts.trans (h.counts.trans hsetUp'.counts.symm)
  page r := (hsetUp.page r).trans ((h.page r).trans (hsetUp'.page r).symm)
  faults := hsetUp.faults ▸ h.faults
  faults' := hsetUp'.faults ▸ h.faults'

/-- Worlds that are faulty for one code are alike for an instrument of another one. -/
theorem alikeFor (h : FaultyFor x w w') (hcode : i.stockCode ≠ x.stockCode)
    (hentry : w.store.ledger.entryOf i = w'.store.ledger.entryOf i) : AlikeFor i w w' where
  isUp := ⟨h.plan, fun f hf => (h.faults f hf).symm ▸ hcode.symm⟩
  isUp' := ⟨h.plan', fun f hf => (h.faults' f hf).symm ▸ hcode.symm⟩
  page r _ := h.page r
  counts := h.counts
  entry := hentry

end FaultyFor

/-- The same has been drafted as well, in transactions that are open. -/
structure AlikeInside (i : Instrument) (w w' : RehearsalWorld) : Prop extends AlikeFor i w w' where
  draft : w.store.ledger.draft = w'.store.ledger.draft
  isOpen : w.store.ledger.draft.isSome

/-- Calls of the stores, counted or not, leave the worlds alike if they change nothing committed. -/
theorem AlikeFor.ofCalls (h : AlikeFor i w w') {l l' : Ledger}
    (hkept : l.committed = w.store.ledger.committed)
    (hkept' : l'.committed = w'.store.ledger.committed) (calls calls' : List StoreCall)
    (transactions transactions' : Nat) :
    AlikeFor i { w with store := { w.store with ledger := l, calls, transactions } }
      { w' with store :=
        { w'.store with ledger := l', calls := calls', transactions := transactions' } } where
  isUp := ⟨h.isUp.plan, h.isUp.faultless⟩
  isUp' := ⟨h.isUp'.plan, h.isUp'.faultless⟩
  page := h.page
  counts := h.counts
  entry := by
    dsimp only
    rw [Ledger.entryOf_eq_of_committed hkept, Ledger.entryOf_eq_of_committed hkept', h.entry]

/-- Calls that no plan makes fail come to the same if the ledgers answer the same. -/
theorem agree_callIn {R E : RehearsalWorld → RehearsalWorld → Prop} {c : RehearsalStore → StoreCall}
    {answer : RehearsalStore → Ledger → α × Ledger} (hplan : ∀ n c, s.world.store.plan n c = none)
    (hplan' : ∀ n c, s'.world.store.plan n c = none)
    (hanswer : (answer s.world.store s.world.store.ledger).1 =
      (answer s'.world.store s'.world.store.ledger).1)
    (hrel : ∀ calls calls', R
      { s.world with store := { s.world.store with
          calls, ledger := (answer s.world.store s.world.store.ledger).2 } }
      { s'.world with store := { s'.world.store with
          calls := calls', ledger := (answer s'.world.store s'.world.store.ledger).2 } }) :
    Agree R E ((RehearsalStore.callIn storePart c answer).exec s)
      ((RehearsalStore.callIn storePart c answer).exec s') := by
  rw [RehearsalStore.exec_callIn_of_plan (hplan _ _), RehearsalStore.exec_callIn_of_plan (hplan' _ _)]
  have hsame : (answer (storePart.get s.world) (storePart.get s.world).ledger).1 =
      (answer (storePart.get s'.world) (storePart.get s'.world).ledger).1 := hanswer
  rw [hsame]
  exact .ok (hrel _ _)

/-- In transactions of the instrument every call for it comes to the same. -/
theorem answersAlike_batch (strategies : Strategies) (config : BatchConfig) (i : Instrument) :
    (batch strategies config).AnswersAlike (RehearsalStore.ledgerOf storePart) i
      (AlikeInside i) where
  prices key hkey endpoint first last s s' h := by
    let r : PriceRequest := ⟨endpoint, key, first, last⟩
    have hcode : r.key.stockCode = i.stockCode := (Instrument.of_key? hkey).2
    have hanswer : (s.world.market.answer r).1 = .ok (s.world.market.page r) :=
      RehearsalMarket.answer_fst (hcode ▸ h.isUp.faultless)
    have hanswer' : (s'.world.market.answer r).1 = .ok (s.world.market.page r) := by
      rw [RehearsalMarket.answer_fst (hcode ▸ h.isUp'.faultless), h.page r hcode]
    obtain ⟨answered, hrecord⟩ := s.world.market.answer_snd r
    obtain ⟨answered', hrecord'⟩ := s'.world.market.answer_snd r
    -- The two answers are the same page, and only the records of the brokers move on.
    change Agree _ _
      ((s.world.market.answer r).1, { s with world.market := (s.world.market.answer r).2 })
      ((s'.world.market.answer r).1, { s' with world.market := (s'.world.market.answer r).2 })
    rw [hanswer, hanswer', hrecord, hrecord']
    exact .ok ⟨⟨⟨h.isUp.plan, h.isUp.faultless⟩, ⟨h.isUp'.plan, h.isUp'.faultless⟩, h.page, h.counts,
      h.entry⟩, h.draft, h.isOpen⟩
  existingDates key hkey first last s s' h := by
    dsimp only [batch, RehearsalStore.prices]
    refine agree_callIn h.isUp.plan h.isUp'.plan
      (Ledger.existingDates_congr h.entry h.draft hkey first last) fun calls calls' => ?_
    exact ⟨h.ofCalls rfl rfl calls calls' _ _, h.draft, h.isOpen⟩
  saveAll key hkey bars s s' h := by
    dsimp only [batch, RehearsalStore.prices]
    obtain ⟨rows, hrows, hrows'⟩ := Ledger.insert_congr h.entry h.draft hkey h.isOpen bars
    refine agree_callIn h.isUp.plan h.isUp'.plan (by rw [hrows, hrows', h.counts])
      fun calls calls' => ?_
    rw [hrows, hrows']
    refine ⟨h.ofCalls (Ledger.committed_addRows _ rows) (Ledger.committed_addRows _ rows) calls calls'
      _ _, ?_, ?_⟩
    · exact congrArg (Option.map _) h.draft
    · exact (Ledger.isSome_draft_addRows _ _).trans h.isOpen
  rows key hkey bars s s' n t t' h hrun hrun' := by
    obtain ⟨rows, hrows, hrows'⟩ := Ledger.insert_congr h.entry h.draft hkey h.isOpen bars
    obtain ⟨-, hworld⟩ := RehearsalStore.saveAll_ok (p := storePart) hrun
    obtain ⟨-, hworld'⟩ := RehearsalStore.saveAll_ok (p := storePart) hrun'
    refine ⟨rows, ?_, ?_⟩
    · rw [hworld]
      exact congrArg Prod.snd hrows
    · rw [hworld']
      exact congrArg Prod.snd hrows'
  markCompleted s s' h := by
    dsimp only [batch, RehearsalStore.prices]
    refine agree_callIn h.isUp.plan h.isUp'.plan rfl fun calls calls' => ?_
    refine ⟨h.ofCalls (Ledger.committed_mark _ i.id) (Ledger.committed_mark _ i.id) calls calls' _ _,
      congrArg (Option.map _) h.draft, ?_⟩
    exact Option.isSome_map.trans h.isOpen
  commit s s' h := by
    dsimp only [batch, RehearsalStore.prices]
    exact agree_callIn h.isUp.plan h.isUp'.plan rfl fun _ _ => trivial

/-- **Rehearsals behave the same for an instrument** if nothing fails for it and the same is known and
committed for it. -/
theorem behavesAlike_batch (strategies : Strategies) (config : BatchConfig)
    (h : AlikeFor i s.world s'.world) :
    (batch strategies config).BehavesAlike (RehearsalStore.ledgerOf storePart) i s s' := by
  refine ⟨AlikeInside i, answersAlike_batch strategies config i, ?_⟩
  dsimp only [batch, RehearsalStore.prices]
  rw [Attempt.exec_bind, Attempt.exec_bind, Attempt.exec_ofAct, Attempt.exec_ofAct]
  refine agree_callIn h.isUp.plan h.isUp'.plan rfl fun calls calls' => ?_
  exact ⟨h.ofCalls (Ledger.committed_begin _) (Ledger.committed_begin _) calls calls' _ _, rfl, rfl⟩

end DailyBars.RehearsalWorld
