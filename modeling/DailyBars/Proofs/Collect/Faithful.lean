import DailyBars.Proofs.Collect.Dedup
import DailyBars.Proofs.Collect.Keyset
import DailyBars.Proofs.Collect.Pages
import DailyBars.Proofs.Storage.Inserts

/-!
# What a successful visit adds

Where the broker always answers a question alike, the questions of a walk do not depend on what is
stored, and neither do the bars that it comes by. A visit that succeeds inserts these bars, whatever
else was stored before; and it succeeds if nothing fails and the instrument has a strategy and a key.
-/

namespace DailyBars

variable {σ : Type} {ledger : σ → Ledger} {inv up : σ → Prop}

/-- What a broker answers when it does, question by question. -/
abbrev PriceAnswers := Endpoint → InstrumentKey → Date → Date → List Bar

namespace Batch

variable {b : Batch σ} {answers : PriceAnswers} {job : Job} {strategy : Strategy}
  {key : InstrumentKey} {i : Instrument} {start last cursor : Date} {s s' : Session σ}
  {page bars bars' : List Bar} {saved n m : Nat} {w w₁ w₂ : σ}

/-! ### The bars of an instrument -/

/-- The bars that a job comes by from a cursor on. -/
def barsFrom (b : Batch σ) (answers : PriceAnswers) (job : Job) (strategy : Strategy)
    (key : InstrumentKey) (start cursor : Date) : List Bar :=
  let page := answers (.ofAssetType strategy.assetType) key start cursor
  match b.nextEnd? job strategy key start cursor page with
  | none => page
  | some next => page ++ b.barsFrom answers job strategy key start next.val
termination_by (cursor.dayNumber + 96465292).toNat
decreasing_by
  have h1 : next.val.dayNumber < cursor.dayNumber := next.property
  have h2 := next.val.inCalendar
  omega

/-- The bars that a job comes by for a key; there are none without a strategy for its asset type. -/
def barsOf (b : Batch σ) (answers : PriceAnswers) (job : Job) (start last : Date)
    (key : InstrumentKey) : List Bar :=
  match b.strategies.find (some key.assetType) with
  | .ok strategy => b.barsFrom answers job strategy key start last
  | .error _ => []

/-- The batch has a strategy for the instrument and a key for its prices. -/
def Collects (b : Batch σ) (i : Instrument) : Prop :=
  (∃ strategy, b.strategies.find i.assetType = .ok strategy) ∧ ∃ key, i.key? = some key

theorem nextEnd?_nil : b.nextEnd? job strategy key start cursor [] = none := by
  cases job with
  | collection => rfl
  | backfill => exact if_pos (PageSource.one_le_fullPage _)

end Batch

/-- A key is one of the instrument's asset type and code. -/
theorem Instrument.of_key? {i : Instrument} {key : InstrumentKey} (h : i.key? = some key) :
    i.assetType = some key.assetType ∧ key.stockCode = i.stockCode := by
  unfold key? at h
  cases ht : i.assetType with
  | none => rw [ht] at h; cases h
  | some t =>
      rw [ht] at h
      dsimp only at h
      split at h
      · obtain ⟨m, -, rfl⟩ := Option.map_eq_some_iff.mp h
        exact ⟨rfl, rfl⟩
      · cases h
        exact ⟨rfl, rfl⟩

namespace Batch

variable {b : Batch σ} {answers : PriceAnswers} {job : Job} {strategy : Strategy}
  {key : InstrumentKey} {i : Instrument} {start last cursor : Date} {s s' : Session σ}
  {page bars bars' : List Bar} {saved n m : Nat} {w w₁ w₂ : σ}

/-! ### What calls answer -/

/-- A batch on a store with transactions that takes a bar only if it has none for the key and the day,
with a broker whose answers depend on the question alone. Any call may fail at any time; what is said
of the answers holds as long as something holds of the world that nothing in a run puts to an end. -/
structure Faithful (b : Batch σ) (ledger : σ → Ledger) (answers : PriceAnswers) (inv : σ → Prop) :
    Prop where
  transactional : b.Transactional ledger
  watches : b.Watches ledger
  keeps : b.Moves fun w w' => inv w → inv w'
  prices : ∀ endpoint key first last s page s', inv s.world →
    (b.prices endpoint key first last).exec s = (.ok page, s') → page = answers endpoint key first last
  existingDates : ∀ key first last s days s', inv s.world →
    (b.store.existingDates key first last).exec s = (.ok days, s') →
    ∀ day, day ∈ days ↔ first ≤ day ∧ day ≤ last ∧ HasBar (ledger s.world).visible key day
  saveAll : ∀ key bars s saved s', inv s.world →
    (b.store.saveAll key bars).exec s = (.ok saved, s') →
    ledger s'.world = ((ledger s.world).insert key bars).2

/-- The open transaction has inserted the bars, and has saved none if each was there already. -/
structure Inserts (ledger : σ → Ledger) (inv : σ → Prop) (key : InstrumentKey) (bars : List Bar)
    (saved : Nat) (w w' : σ) : Prop where
  inv : inv w'
  ledger_eq : ledger w' = (ledger w).addRows (absentRows (ledger w).visible key bars)
  saved_eq : (∀ b ∈ bars, HasBar (ledger w).visible key b.tradeDate) → saved = 0

namespace Inserts

theorem nil (hinv : inv w₁) (h : ledger w₁ = ledger w) : Inserts ledger inv key [] 0 w w₁ :=
  ⟨hinv, by rw [h, absentRows, Ledger.addRows_nil], fun _ => rfl⟩

theorem ofEq (h : ledger w₁ = ledger w) (hinserts : Inserts ledger inv key bars n w₁ w₂) :
    Inserts ledger inv key bars n w w₂ := by
  obtain ⟨hinv, hledger, hsaved⟩ := hinserts
  rw [h] at hledger hsaved
  exact ⟨hinv, hledger, hsaved⟩

theorem append (hopen : (ledger w).draft.isSome) (h : Inserts ledger inv key bars n w w₁)
    (h' : Inserts ledger inv key bars' m w₁ w₂) :
    Inserts ledger inv key (bars ++ bars') (n + m) w w₂ := by
  have hvisible : (ledger w₁).visible =
      (ledger w).visible ++ absentRows (ledger w).visible key bars := by
    rw [h.ledger_eq, Ledger.visible_addRows hopen]
  refine ⟨h'.inv, ?_, fun hall => ?_⟩
  · rw [h'.ledger_eq, hvisible, h.ledger_eq, Ledger.addRows_addRows, ← absentRows_append]
  · have hfirst : n = 0 := h.saved_eq fun b hb => hall b (List.mem_append_left _ hb)
    have hsecond : m = 0 := h'.saved_eq fun b hb => by
      rw [hvisible, hasBar_append]
      exact .inl (hall b (List.mem_append_right _ hb))
    rw [hfirst, hsecond]

theorem isSome_draft (h : Inserts ledger inv key bars n w w₁) (hopen : (ledger w).draft.isSome) :
    (ledger w₁).draft.isSome := by
  rw [h.ledger_eq, Ledger.isSome_draft_addRows]
  exact hopen

end Inserts

namespace Faithful

/-- A page that is stored is inserted: the bars that are left out before are there already. -/
theorem saveNew (laws : b.Faithful ledger answers inv) (hinv : inv s.world)
    (hopen : (ledger s.world).draft.isSome) (hpage : page ≠ [])
    (h : (b.store.saveNew key page).exec s = (.ok saved, s')) :
    Inserts ledger inv key page saved s.world s'.world := by
  obtain ⟨oldest, newest, days, s₁, hmin, hmax, hdays, hsaved⟩ := PriceStore.saveNew_ok hpage h
  have hinv₁ := (laws.keeps.existingDates key oldest newest).of_exec hdays hinv
  have hasked : ledger s₁.world = ledger s.world :=
    (laws.transactional.store.existingDates key oldest newest).ok s days s₁ hdays
  have hfresh : freshBars days page = missingBars (ledger s.world).visible key page :=
    freshBars_eq_missingBars hmin hmax
      (laws.existingDates key oldest newest s days s₁ hinv hdays)
  have habsent : absentRows (ledger s.world).visible key (freshBars days page) =
      absentRows (ledger s.world).visible key page := by
    rw [hfresh]
    exact absentRows_filter fun b _ hleft => by simpa using hleft
  rcases hsaved with ⟨hnone, rfl, hworld⟩ | ⟨hsome, s₂, hsave, hworld⟩
  · rw [hworld]
    refine ⟨hinv₁, ?_, fun _ => rfl⟩
    rw [hasked, ← habsent, hnone, absentRows, Ledger.addRows_nil]
  · have hinv₂ := (laws.keeps.saveAll key (freshBars days page)).of_exec hsave hinv₁
    have hinserted := laws.saveAll key (freshBars days page) s₁ saved s₂ hinv₁ hsave
    rw [hasked, Ledger.insert_eq_absentRows hopen, habsent] at hinserted
    rw [hworld]
    refine ⟨hinv₂, hinserted, fun hall => absurd ?_ hsome⟩
    rw [hfresh, missingBars, List.filter_eq_nil_iff]
    intro b hb
    simp [hall b hb]

/-- An error-free gathering inserts the bars that the broker's answers come to. -/
theorem pages (laws : b.Faithful ledger answers inv) (hinv : inv s.world)
    (hopen : (ledger s.world).draft.isSome)
    (h : b.Pages job strategy key start cursor s bars saved s') :
    bars = b.barsFrom answers job strategy key start cursor ∧
      Inserts ledger inv key bars saved s.world s'.world := by
  have fetch {first last : Date} {s s₁ : Session σ} {page : List Bar} (hinv : inv s.world)
      (hfetch : (b.prices (.ofAssetType strategy.assetType) key first last).exec s = (.ok page, s₁)) :
      page = answers (.ofAssetType strategy.assetType) key first last ∧ inv s₁.world ∧
        ledger s₁.world = ledger s.world := by
    exact ⟨laws.prices _ key first last s page s₁ hinv hfetch,
      (laws.keeps.prices _ key first last).of_exec hfetch hinv,
      (laws.transactional.prices _ key first last).ok s page s₁ hfetch⟩
  induction h with
  | empty hfetch hworld =>
      obtain ⟨hpage, hinv₁, hledger⟩ := fetch hinv hfetch
      rw [barsFrom, ← hpage, nextEnd?_nil, hworld]
      exact ⟨rfl, Inserts.nil hinv₁ hledger⟩
  | @last cursor s s₁ s₂ s' page n hfetch hpage hsave hnext hworld =>
      obtain ⟨hanswer, hinv₁, hledger⟩ := fetch hinv hfetch
      rw [barsFrom, ← hanswer, hnext, hworld]
      exact ⟨rfl, Inserts.ofEq hledger (laws.saveNew hinv₁ (hledger ▸ hopen) hpage hsave)⟩
  | @next cursor s s₁ s₂ s₃ s' page bars n m next hfetch hpage hsave hnext hworld _ ih =>
      obtain ⟨hanswer, hinv₁, hledger⟩ := fetch hinv hfetch
      have hsaved := Inserts.ofEq hledger (laws.saveNew hinv₁ (hledger ▸ hopen) hpage hsave)
      rw [← hworld] at hsaved
      obtain ⟨hbars, hrest⟩ := ih hsaved.inv (hsaved.isSome_draft hopen)
      rw [barsFrom, ← hanswer, hnext]
      exact ⟨congrArg (page ++ ·) hbars, hsaved.append hopen hrest⟩

/-- **A visit's transaction that is kept** inserts the bars of the instrument and, in a backfill, sets
its flag. If each of the bars was there already, it has saved none. -/
theorem process (laws : b.Faithful ledger answers inv) (hinv : inv s.world)
    (h : (b.process job i start last).exec s = (.ok saved, s')) :
    b.Collects i ∧ ∃ key, i.key? = some key ∧
      (ledger s'.world).committed = keptBy job i (ledger s.world)
        (absentRows (ledger s.world).rows key (b.barsOf answers job start last key)) ∧
      ((∀ c ∈ b.barsOf answers job start last key, HasBar (ledger s.world).rows key c.tradeDate) →
        saved = 0) := by
  obtain ⟨strategy, s₁, s₂, hfind, hbegin, hwork, hcommit⟩ := exec_process_ok.mp h
  have hinv₁ := laws.keeps.begin.of_exec hbegin hinv
  have hopened := laws.transactional.store.begin.ok s _ s₁ hbegin
  obtain ⟨t, hgather, hkept⟩ := gather_of_work_ok (l := ledger s.world) laws.transactional hwork
  obtain ⟨key, bars, hkey, hpages⟩ := pages_of_gather hgather
  obtain ⟨hbars, -, hledger, hsaved⟩ := laws.pages hinv₁ (by rw [hopened]; rfl) hpages
  have hvisible : (ledger s.world).begin.visible = (ledger s.world).rows := List.append_nil _
  rw [hopened, hvisible] at hledger hsaved
  have hbarsOf : b.barsOf answers job start last key = bars := by
    rw [barsOf, ← (Instrument.of_key? hkey).1, hfind, hbars]
  refine ⟨⟨⟨strategy, hfind⟩, key, hkey⟩, key, hkey, ?_, by rwa [hbarsOf]⟩
  rw [hbarsOf, laws.transactional.store.commit.ok s₂ _ s' hcommit, hkept _ hledger]

end Faithful

end Batch

/-! ### Nothing fails -/

/-- The attempt succeeds wherever something holds of the world, which it leaves in place. -/
def Attempt.SucceedsIn {ε α : Type} (up : σ → Prop) (x : Attempt σ ε α) : Prop :=
  ∀ s, up s.world → ∃ a s', x.exec s = (.ok a, s') ∧ up s'.world

theorem Attempt.inherited_succeedsIn :
    Attempt.Inherited fun _ _ (x : Attempt σ _ _) => x.SucceedsIn up where
  pure a s hup := ⟨a, s, rfl, hup⟩
  quiet x hx s hup := ⟨_, _, exec_ofAct x s, by rw [hx.world s]; exact hup⟩
  orElseAs f hx s hup := by
    obtain ⟨a, s', hrun, hup'⟩ := hx s hup
    exact ⟨a, s', exec_orElseAs_ok.mpr hrun, hup'⟩
  bind hx hf s hup := by
    obtain ⟨a, t, hrun, hup₁⟩ := hx s hup
    obtain ⟨c, s', hrest, hup'⟩ := hf a t hup₁
    exact ⟨c, s', exec_bind_eq_ok.mpr ⟨a, t, hrun, hrest⟩, hup'⟩

namespace Batch

variable {b : Batch σ} {job : Job} {i : Instrument} {start last : Date}

/-- No call of the batch fails where something holds of the world that nothing in a run puts to an
end. -/
structure NeverFails (b : Batch σ) (up : σ → Prop) : Prop where
  findPage : ∀ completed after limit, (b.watchlist.findPage completed after limit).SucceedsIn up
  prices : ∀ endpoint key first last, (b.prices endpoint key first last).SucceedsIn up
  begin : b.store.begin.SucceedsIn up
  existingDates : ∀ key first last, (b.store.existingDates key first last).SucceedsIn up
  saveAll : ∀ key bars, (b.store.saveAll key bars).SucceedsIn up
  markCompleted : ∀ id, (b.store.markCompleted id).SucceedsIn up
  commit : b.store.commit.SucceedsIn up
  rollback : ∀ s, up s.world → up (b.store.rollback.exec s).2.world

namespace NeverFails

theorem moves (h : b.NeverFails up) : b.Moves fun w w' => up w → up w' := by
  have keeps {ε α : Type} {x : Attempt σ ε α} (hx : x.SucceedsIn up) :
      x.Moves fun w w' => up w → up w' := by
    intro s hup
    obtain ⟨a, s', hrun, hup'⟩ := hx s hup
    rw [hrun]
    exact hup'
  exact {
    refl := fun _ hup => hup
    trans := fun h h' hup => h' (h hup)
    findPage := fun completed after limit => keeps (h.findPage completed after limit)
    prices := fun endpoint key first last => keeps (h.prices endpoint key first last)
    begin := keeps h.begin
    existingDates := fun key first last => keeps (h.existingDates key first last)
    saveAll := fun key bars => keeps (h.saveAll key bars)
    markCompleted := fun id => keeps (h.markCompleted id)
    commit := keeps h.commit
    rollback := h.rollback }

/-- A visit's transaction is kept if the instrument can be collected at all. -/
theorem process (h : b.NeverFails up) (job : Job) (start last : Date) (hcollects : b.Collects i)
    {s : Session σ} (hup : up s.world) :
    ∃ saved s', (b.process job i start last).exec s = (.ok saved, s') := by
  obtain ⟨⟨strategy, hfind⟩, key, hkey⟩ := hcollects
  have inherited : Attempt.Inherited fun _ _ (x : Attempt σ _ _) => x.SucceedsIn up :=
    Attempt.inherited_succeedsIn
  have hgather : (b.gather job strategy i start last).SucceedsIn up := by
    refine gather_inherits inherited
      ⟨fun key _ endpoint first last => h.prices endpoint key first last,
        fun key _ first last => h.existingDates key first last,
        fun key _ bars => h.saveAll key bars⟩
      (fun s hup => ⟨key, s, ?_, hup⟩) job start last
    rw [Attempt.exec_ofResult, keyOf_eq_ok.mpr hkey]
  have hwork : (b.work job strategy i start last).SucceedsIn up := by
    rw [work_eq]
    cases job with
    | collection => exact hgather
    | backfill =>
        refine inherited.bind hgather fun saved => ?_
        exact inherited.bind (inherited.orElseAs _ (h.markCompleted i.id)) fun _ =>
          inherited.pure saved
  obtain ⟨⟨⟩, s₁, hbegin, hup₁⟩ := h.begin s hup
  obtain ⟨saved, s₂, hworked, hup₂⟩ := hwork s₁ hup₁
  obtain ⟨⟨⟩, s', hcommit, -⟩ := h.commit s₂ hup₂
  exact ⟨saved, s', exec_process_ok.mpr ⟨strategy, s₁, s₂, hfind, hbegin, hworked, hcommit⟩⟩

end NeverFails

end Batch

end DailyBars
