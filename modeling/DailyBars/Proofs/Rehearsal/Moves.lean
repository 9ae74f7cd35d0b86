import DailyBars.Proofs.Collect.Moves

/-!
# What a rehearsal batch never changes

A rehearsal batch records its calls and works on its ledger. The plan of its store and the history of
its broker stay as they were set up, so whatever is a matter of those holds throughout a run.
-/

namespace DailyBars

variable {σ α : Type}

/-- A call of a rehearsal store changes nothing but the ledger and the record of the calls. -/
theorem RehearsalStore.exec_callIn_snd (p : Part σ RehearsalStore) (c : RehearsalStore → StoreCall)
    (answer : RehearsalStore → Ledger → α × Ledger) (s : Session σ) :
    ∃ l, ((callIn p c answer).exec s).2 =
      { s with world := p.set ((p.get s.world).answered (c (p.get s.world)) l) s.world } := by
  cases h : (p.get s.world).plan (p.get s.world).calls.length (c (p.get s.world)) with
  | some e => exact ⟨_, by rw [exec_callIn_of_plan_eq_some h]⟩
  | none => exact ⟨_, by rw [exec_callIn_of_plan h]⟩

/-- An answer of a rehearsal broker changes nothing but the record of the requests. -/
theorem RehearsalMarket.answer_snd (m : RehearsalMarket) (r : PriceRequest) :
    ∃ answered, (m.answer r).2 = { m with requests := m.requests ++ [r], answered } := by
  unfold answer
  dsimp only
  split
  · exact ⟨_, rfl⟩
  · exact ⟨_, rfl⟩

/-- Without a fault for its code a question is answered with the page that the broker has. -/
theorem RehearsalMarket.answer_fst {m : RehearsalMarket} {r : PriceRequest}
    (h : ∀ f ∈ m.faults, f.code ≠ r.key.stockCode) : (m.answer r).1 = .ok (m.page r) := by
  have hnone : (m.faults.find? fun f =>
      f.code == r.key.stockCode && f.after ≤ m.answered.count r.key.stockCode) = none := by
    refine List.find?_eq_none.mpr fun f hf => ?_
    simp [h f hf]
  unfold answer
  simp only [hnone]
  rfl

namespace RehearsalWorld

variable {Q : Session RehearsalWorld → Session RehearsalWorld → Prop}
  {R : RehearsalWorld → RehearsalWorld → Prop}

/-- A rehearsal batch takes the session on by its ledger, its records and its remarks alone. -/
theorem takes_batch (strategies : Strategies) (config : BatchConfig) (refl : ∀ s, Q s s)
    (trans : ∀ {s₁ s₂ s₃}, Q s₁ s₂ → Q s₂ s₃ → Q s₁ s₃)
    (remark : ∀ (s : Session RehearsalWorld) events, (∀ e ∈ events, ¬ LogEvent.IsOfBatch e) →
      Q s { s with log := s.log ++ events })
    (store : ∀ s ledger calls queries transactions, Q s { s with world := { s.world with
      store := { s.world.store with ledger, calls, queries, transactions } } })
    (market : ∀ s requests answered, Q s { s with world := { s.world with
      market := { s.world.market with requests, answered } } }) :
    (batch strategies config).Takes Q := by
  have call {α : Type} (c : RehearsalStore → StoreCall)
      (answer : RehearsalStore → Ledger → α × Ledger) :
      (RehearsalStore.callIn storePart c answer).Takes Q := by
    intro s
    obtain ⟨l, hexec⟩ := RehearsalStore.exec_callIn_snd storePart c answer s
    rw [hexec]
    exact store s l _ _ _
  have counted {α : Type} (count : RehearsalStore → RehearsalStore) (x : Attempt _ StorageError α)
      (hcount : ∀ s, Q s { s with world := { s.world with store := count s.world.store } })
      (hx : x.Takes Q) :
      Attempt.Takes Q (do Attempt.ofAct (Act.onPart storePart fun s => ((), count s)); x) := by
    refine (Attempt.inherited_takes refl trans remark).bind (fun s => ?_) fun _ => hx
    exact hcount s
  exact {
    refl
    trans
    remark
    findPage := fun _ _ _ => counted _ _ (fun s => store s _ _ _ _) (call _ _)
    prices := fun endpoint key first last s => by
      obtain ⟨answered, hanswer⟩ := s.world.market.answer_snd ⟨endpoint, key, first, last⟩
      have hexec : (((batch strategies config).prices endpoint key first last).exec s).2 =
          { s with world := { s.world with
            market := (s.world.market.answer ⟨endpoint, key, first, last⟩).2 } } := rfl
      rw [hexec, hanswer]
      exact market s _ _
    begin := counted _ _ (fun s => store s _ _ _ _) (call _ _)
    existingDates := fun _ _ _ => call _ _
    saveAll := fun _ _ => call _ _
    markCompleted := fun _ => call _ _
    commit := call _ _
    rollback := fun s => store s _ _ _ _ }

/-- A rehearsal batch moves the world by its ledger and its records alone. -/
theorem moves_batch (strategies : Strategies) (config : BatchConfig) (refl : ∀ w, R w w)
    (trans : ∀ {w₁ w₂ w₃}, R w₁ w₂ → R w₂ w₃ → R w₁ w₃)
    (store : ∀ w ledger calls queries transactions, R w
      { w with store := { w.store with ledger, calls, queries, transactions } })
    (market : ∀ w requests answered, R w { w with market := { w.market with requests, answered } }) :
    (batch strategies config).Moves R :=
  { takes_batch (Q := fun s s' => R s.world s'.world) strategies config (fun s => refl s.world) trans
      (fun s _ _ => refl s.world) (fun s => store s.world) fun s => market s.world with
    refl
    trans }

/-- What holds of every world with the same plan and the same broker holds throughout a run. -/
theorem keeps_batch {inv : RehearsalWorld → Prop} (strategies : Strategies) (config : BatchConfig)
    (store : ∀ w ledger calls queries transactions, inv w →
      inv { w with store := { w.store with ledger, calls, queries, transactions } })
    (market : ∀ w requests answered, inv w →
      inv { w with market := { w.market with requests, answered } }) :
    (batch strategies config).Moves fun w w' => inv w → inv w' :=
  moves_batch strategies config (fun _ h => h) (fun h h' hw => h' (h hw)) store market

/-- A plan without failures stays without. -/
theorem keeps_plan (strategies : Strategies) (config : BatchConfig) :
    (batch strategies config).Moves fun w w' =>
      (∀ n c, w.store.plan n c = none) → ∀ n c, w'.store.plan n c = none :=
  keeps_batch strategies config (fun _ _ _ _ _ h => h) fun _ _ _ h => h

/-- The second world is set up as the first: with the same plan of failures and the same way of
counting, and with a broker that has the same pages and the same faults. -/
structure SetUpAs (w w' : RehearsalWorld) : Prop where
  plan : w'.store.plan = w.store.plan
  counts : w'.store.countsRepeats = w.store.countsRepeats
  faults : w'.market.faults = w.market.faults
  page : ∀ r, w'.market.page r = w.market.page r

/-- A world stays set up as it was. -/
theorem setUpAs_batch (strategies : Strategies) (config : BatchConfig) :
    (batch strategies config).Moves SetUpAs := by
  refine moves_batch strategies config (fun w => ⟨rfl, rfl, rfl, fun _ => rfl⟩) ?_
    (fun w _ _ _ _ => ⟨rfl, rfl, rfl, fun _ => rfl⟩) (fun w _ _ => ⟨rfl, rfl, rfl, fun _ => rfl⟩)
  intro w₁ w₂ w₃ h h'
  exact ⟨h'.plan.trans h.plan, h'.counts.trans h.counts, h'.faults.trans h.faults,
    fun r => (h'.page r).trans (h.page r)⟩

end RehearsalWorld

end DailyBars
