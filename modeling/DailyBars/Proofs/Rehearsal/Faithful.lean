import DailyBars.Proofs.Collect.Faithful

/-!
# A rehearsal answers faithfully

A rehearsal broker that answers does so from its history, which nothing in a run changes, and a
rehearsal store answers from its ledger. Without a plan of failures, and with a broker without faults,
no call fails.
-/

namespace DailyBars

/-- An answer of a rehearsal broker is the page that it has. -/
theorem RehearsalMarket.page_of_answer {m : RehearsalMarket} {r : PriceRequest} {page : List Bar}
    (h : (m.answer r).1 = .ok page) : page = m.page r := by
  unfold answer at h
  dsimp only at h
  split at h
  · cases h
  · exact (Except.ok.inj h).symm

namespace RehearsalWorld

variable {m : RehearsalMarket}

/-- The broker has the pages of a market. -/
def Serves (m : RehearsalMarket) (w : RehearsalWorld) : Prop := ∀ r, w.market.page r = m.page r

/-- The broker has the pages of a market, and nothing fails. -/
structure IsUp (m : RehearsalMarket) (w : RehearsalWorld) : Prop where
  serves : Serves m w
  faults : w.market.faults = []
  plan : ∀ n c, w.store.plan n c = none

theorem faithful_batch (strategies : Strategies) (config : BatchConfig) (m : RehearsalMarket) :
    (batch strategies config).Faithful (RehearsalStore.ledgerOf storePart)
      (fun endpoint key first last => m.page ⟨endpoint, key, first, last⟩) (Serves m) where
  transactional := transactional_batch strategies config
  watches := watches_batch strategies config
  keeps := keeps_batch strategies config (fun _ _ _ _ _ h => h) fun _ _ _ h => h
  prices endpoint key first last s page s' hserves h := by
    obtain ⟨hanswer, -⟩ := Prod.mk.inj h
    exact (RehearsalMarket.page_of_answer hanswer).trans (hserves _)
  existingDates key first last s days s' _ h := by
    obtain ⟨hdays, -⟩ := RehearsalStore.existingDates_ok (p := storePart) h
    rw [hdays]
    exact fun day => Ledger.mem_existingDates
  saveAll key bars s saved s' _ h := by
    obtain ⟨-, hworld⟩ := RehearsalStore.saveAll_ok (p := storePart) h
    rw [hworld]
    rfl

theorem neverFails_batch (strategies : Strategies) (config : BatchConfig) (m : RehearsalMarket) :
    (batch strategies config).NeverFails (IsUp m) := by
  have call {α : Type} (c : RehearsalStore → StoreCall)
      (answer : RehearsalStore → Ledger → α × Ledger) :
      (RehearsalStore.callIn storePart c answer).SucceedsIn (IsUp m) := by
    intro s hup
    exact ⟨_, _, RehearsalStore.exec_callIn_of_plan (hup.plan _ _),
      ⟨hup.serves, hup.faults, hup.plan⟩⟩
  have counted {α : Type} (count : RehearsalStore → RehearsalStore)
      (hcount : ∀ store, (count store).plan = store.plan) {x : Attempt _ StorageError α}
      (hx : x.SucceedsIn (IsUp m)) : Attempt.SucceedsIn (IsUp m)
        (do Attempt.ofAct (Act.onPart storePart fun s => ((), count s)); x) := by
    refine Attempt.inherited_succeedsIn.bind (fun s hup => ?_) fun _ => hx
    refine ⟨_, _, rfl, hup.serves, hup.faults, fun n c => ?_⟩
    exact (congrFun (congrFun (hcount s.world.store) n) c).trans (hup.plan n c)
  exact {
    findPage := fun _ _ _ => by
      dsimp only [batch, RehearsalStore.watchlist]
      exact counted RehearsalStore.countQuery (fun _ => rfl) (call _ _)
    prices := fun endpoint key first last s hup => by
      let r : PriceRequest := ⟨endpoint, key, first, last⟩
      have hok : (s.world.market.answer r).1 = .ok (s.world.market.page r) :=
        RehearsalMarket.answer_fst (by simp [hup.faults])
      obtain ⟨answered, hrecord⟩ := s.world.market.answer_snd r
      refine ⟨s.world.market.page r, _, Prod.ext hok rfl, ?_⟩
      change IsUp m { s.world with market := (s.world.market.answer r).2 }
      rw [hrecord]
      exact ⟨hup.serves, hup.faults, hup.plan⟩
    begin := by
      dsimp only [batch, RehearsalStore.prices]
      exact counted RehearsalStore.countTransaction (fun _ => rfl) (call _ _)
    existingDates := fun _ _ _ => by
      dsimp only [batch, RehearsalStore.prices]
      exact call _ _
    saveAll := fun _ _ => by
      dsimp only [batch, RehearsalStore.prices]
      exact call _ _
    markCompleted := fun _ => by
      dsimp only [batch, RehearsalStore.prices]
      exact call _ _
    commit := by
      dsimp only [batch, RehearsalStore.prices]
      exact call _ _
    rollback := fun _ hup => ⟨hup.serves, hup.faults, hup.plan⟩ }

end RehearsalWorld

end DailyBars
