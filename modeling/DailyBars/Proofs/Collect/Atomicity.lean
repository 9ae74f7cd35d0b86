import DailyBars.Proofs.Collect.Calls
import DailyBars.Proofs.Storage.Transaction

/-!
# Visits keep all or nothing

Every visit works in a transaction of its own. Up to the commit it changes the draft alone, wherever
it fails, so a visit that is not counted as a success leaves what is committed as it was. A visit
that is counted as one commits the rows of its whole walk and, in a backfill, the flag with them.
Between visits a batch does not touch the store, so a sequence of runs changes what is committed by
its visits alone.
-/

namespace DailyBars

variable {σ : Type} {ledger : σ → Ledger}

/-! ### Work inside a transaction -/

/-- Programs change a draft as their parts do. -/
theorem Attempt.inherited_changesBy {change : Ledger → Ledger → Prop}
    (drafting : Ledger.Drafting change) :
    Attempt.Inherited fun _ _ (x : Attempt σ _ _) => x.ChangesBy ledger change where
  pure a := ChangesBy.ofResult drafting (.ok a)
  quiet _ hx := ChangesBy.ofAct drafting fun s => congrArg ledger (hx.world s)
  orElseAs f hx := hx.orElseAs f
  bind hx hf := hx.bind drafting hf

/-- What a batch needs of its parts: a price store with transactions, and a broker and a watchlist
that leave the store alone. -/
structure Batch.Transactional (b : Batch σ) (ledger : σ → Ledger) : Prop where
  store : b.store.Transactional ledger
  prices : ∀ endpoint key first last, (b.prices endpoint key first last).ActsOn ledger id
  findPage : ∀ completed after limit,
    (b.watchlist.findPage completed after limit).ActsOn ledger id

namespace Batch

variable {b : Batch σ} {job : Job} {i : Instrument} {start last : Date} {s s' : Session σ}
  {e : CollectError} {saved : Nat}

/-- What a job gathers for an instrument: the prices of a day, or a walk through its history. -/
def gather (b : Batch σ) (job : Job) (strategy : Strategy) (i : Instrument) (start last : Date) :
    Attempt σ CollectError Nat :=
  match job with
  | .collection => strategy.collect b.prices b.store i start last
  | .backfill => strategy.backfill b.prices b.store i start last

theorem keyOf_eq_ok {strategy : Strategy} {key : InstrumentKey} :
    strategy.keyOf i = .ok key ↔ i.key? = some key := by
  unfold Strategy.keyOf
  cases i.key? <;> simp

/-- The calls that a visit to an instrument makes while it gathers prices have a property. -/
structure GatherCalls (b : Batch σ) (i : Instrument)
    (P : ∀ ⦃ε α : Type⦄, Attempt σ ε α → Prop) : Prop where
  prices : ∀ key, i.key? = some key → ∀ endpoint first last, P (b.prices endpoint key first last)
  existingDates : ∀ key, i.key? = some key → ∀ first last, P (b.store.existingDates key first last)
  saveAll : ∀ key, i.key? = some key → ∀ bars, P (b.store.saveAll key bars)

/-- Gathering prices has every property that it inherits from its calls. -/
theorem gather_inherits {P : ∀ ⦃ε α : Type⦄, Attempt σ ε α → Prop} (inherited : Attempt.Inherited P)
    (calls : b.GatherCalls i P) {strategy : Strategy}
    (hkey : P (Attempt.ofResult (strategy.keyOf i))) (job : Job) (start last : Date) :
    P (b.gather job strategy i start last) := by
  have hsave (key : InstrumentKey) (hk : i.key? = some key) (page : List Bar) :
      P (b.store.saveNew key page) :=
    inherited.saveNew (calls.existingDates key hk) (calls.saveAll key hk) page
  cases job with
  | collection =>
      refine inherited.ofResult_bind hkey fun key h => ?_
      have hk := keyOf_eq_ok.mp h
      refine inherited.bind (inherited.orElseAs _ (calls.prices key hk _ start last)) fun page => ?_
      split
      · exact inherited.pure 0
      · exact hsave key hk page
  | backfill =>
      refine inherited.ofResult_bind hkey fun key h => ?_
      have hk := keyOf_eq_ok.mp h
      refine inherited.bind (inherited.walkFrom (fun first last => ?_) (hsave key hk) _ _ _ _) ?_
      · exact inherited.orElseAs _ (calls.prices key hk _ first last)
      · intro progress
        exact inherited.bind (inherited.quiet _ (.emit (by decide))) fun _ => inherited.pure _

theorem changesBy_gather {change : Ledger → Ledger → Prop} (drafting : Ledger.Drafting change)
    (laws : b.Transactional ledger)
    (saveAll : ∀ key, i.key? = some key → ∀ bars, (b.store.saveAll key bars).ChangesBy ledger change)
    (job : Job) (strategy : Strategy) (start last : Date) :
    (b.gather job strategy i start last).ChangesBy ledger change := by
  refine gather_inherits (Attempt.inherited_changesBy drafting) ⟨?_, ?_, saveAll⟩
    (Attempt.ChangesBy.ofResult drafting _) ..
  · exact fun key _ endpoint first last =>
      Attempt.ChangesBy.ofActsOn_id drafting (laws.prices endpoint key first last)
  · exact fun key _ first last =>
      Attempt.ChangesBy.ofActsOn_id drafting (laws.store.existingDates key first last)

theorem draftsOn_gather (laws : b.Transactional ledger) (job : Job) (strategy : Strategy)
    (i : Instrument) (start last : Date) :
    (b.gather job strategy i start last).DraftsOn ledger :=
  changesBy_gather Ledger.drafting_drafted laws (fun key _ bars => laws.store.saveAll key bars)
    job strategy start last

/-! ### A visit's transaction -/

/-- An error-free walk of a job over an instrument, in a transaction that was opened on the given
ledger: `rows` is all that it has drafted. -/
def Gathers (b : Batch σ) (ledger : σ → Ledger) (job : Job) (i : Instrument) (start last : Date)
    (l : Ledger) (saved : Nat) (rows : List StoredBar) : Prop :=
  ∃ strategy opened gathered, b.strategies.find i.assetType = .ok strategy ∧
    ledger (Session.world opened) = l.begin ∧
    (b.gather job strategy i start last).exec opened = (.ok saved, gathered) ∧
    ledger gathered.world = l.begin.addRows rows

/-- What is committed after a visit that gathered some rows: the rows in any case, and the flag of
the instrument if its history was walked. -/
def keptBy (job : Job) (i : Instrument) (l : Ledger) (rows : List StoredBar) :
    List Instrument × List StoredBar :=
  match job with
  | .collection => (l.instruments, l.rows ++ rows)
  | .backfill => (Ledger.flagged [i.id] l.instruments, l.rows ++ rows)

theorem work_eq (b : Batch σ) (job : Job) (strategy : Strategy) (i : Instrument)
    (start last : Date) :
    b.work job strategy i start last =
      match job with
      | .collection => b.gather job strategy i start last
      | .backfill => do
        let saved ← b.gather job strategy i start last
        (b.store.markCompleted i.id).orElseAs .storage
        return saved := by
  cases job <;> rfl

/-- Work changes nothing that is committed, whether it succeeds or fails. -/
theorem committed_work (laws : b.Transactional ledger) (strategy : Strategy)
    {r : Except CollectError Nat} (h : (b.work job strategy i start last).exec s = (r, s')) :
    (ledger s'.world).committed = (ledger s.world).committed := by
  have hdrafts := draftsOn_gather laws job strategy i start last
  rw [work_eq] at h
  cases job with
  | collection => exact hdrafts.committed_eq h
  | backfill =>
      have hmark := (laws.store.markCompleted i.id).orElseAs CollectError.storage
      rw [Attempt.exec_bind] at h
      rcases hgather : (b.gather .backfill strategy i start last).exec s with ⟨r₁, s₁⟩
      rw [hgather] at h
      -- The flag is only set after the rows were gathered.
      cases r₁ with
      | error e =>
          cases h
          exact hdrafts.error s e _ hgather
      | ok n =>
          dsimp only at h
          rw [Attempt.exec_bind] at h
          rcases hm : ((b.store.markCompleted i.id).orElseAs CollectError.storage).exec s₁ with
            ⟨r₂, s₂⟩
          have hkept := hmark.committed_eq (fun l l' hl => hl ▸ Ledger.committed_mark l i.id) hm
          rw [hm] at h
          cases r₂ <;> cases h <;> exact hkept.trans (hdrafts.committed_eq hgather)

/-- Work that succeeds in a new transaction has gathered first; a commit keeps the rows that were
drafted by then and, in a backfill, the flag. -/
theorem gather_of_work_ok (laws : b.Transactional ledger) {strategy : Strategy} {l : Ledger}
    (h : (b.work job strategy i start last).exec s = (.ok saved, s')) :
    ∃ t, (b.gather job strategy i start last).exec s = (.ok saved, t) ∧
      ∀ rows, ledger t.world = l.begin.addRows rows →
        (ledger s'.world).commit.committed = keptBy job i l rows := by
  rw [work_eq] at h
  cases job with
  | collection =>
      refine ⟨s', h, fun rows hrows => ?_⟩
      rw [hrows, Ledger.committed_commit_begin_addRows]
      rfl
  | backfill =>
      obtain ⟨n, t, hgather, h⟩ := Attempt.exec_bind_eq_ok.mp h
      obtain ⟨⟨⟩, s₂, hmark, h⟩ := Attempt.exec_bind_eq_ok.mp h
      cases h
      have hmarked := (laws.store.markCompleted i.id).ok t _ s' (Attempt.exec_orElseAs_ok.mp hmark)
      refine ⟨t, hgather, fun rows hrows => ?_⟩
      rw [hmarked, hrows, Ledger.committed_commit_begin_addRows_mark]
      rfl

/-- Work that succeeds in a new transaction has drafted the rows that it gathered and, in a backfill,
the flag; a commit keeps them. -/
theorem work_ok (laws : b.Transactional ledger) {strategy : Strategy} {l : Ledger}
    (hfind : b.strategies.find i.assetType = .ok strategy) (hopened : ledger s.world = l.begin)
    (h : (b.work job strategy i start last).exec s = (.ok saved, s')) :
    ∃ rows, b.Gathers ledger job i start last l saved rows ∧
      (ledger s'.world).commit.committed = keptBy job i l rows := by
  obtain ⟨t, hgather, hkept⟩ := gather_of_work_ok laws h
  obtain ⟨rows, hrows⟩ := (draftsOn_gather laws job strategy i start last).ok s saved t hgather
  rw [hopened] at hrows
  exact ⟨rows, ⟨strategy, s, t, hfind, hopened, hgather, hrows⟩, hkept rows hrows⟩

/-- A visit's transaction succeeds exactly if all its steps do. -/
theorem exec_process_ok : (b.process job i start last).exec s = (.ok saved, s') ↔
    ∃ strategy s₁ s₂, b.strategies.find i.assetType = .ok strategy ∧
      b.store.begin.exec s = (.ok (), s₁) ∧
      (b.work job strategy i start last).exec s₁ = (.ok saved, s₂) ∧
      b.store.commit.exec s₂ = (.ok (), s') := by
  unfold process
  constructor
  · intro h
    obtain ⟨strategy, t, hfind, h⟩ := Attempt.exec_bind_eq_ok.mp h
    obtain ⟨hfind, rfl⟩ := Prod.mk.inj hfind
    obtain ⟨⟨⟩, s₁, hbegin, h⟩ := Attempt.exec_bind_eq_ok.mp h
    obtain ⟨n, s₂, hwork, h⟩ := Attempt.exec_bind_eq_ok.mp (Attempt.exec_onFailure_eq_ok.mp h)
    obtain ⟨⟨⟩, s₃, hcommit, h⟩ := Attempt.exec_bind_eq_ok.mp h
    cases h
    refine ⟨strategy, s₁, s₂, ?_, Attempt.exec_orElseAs_ok.mp hbegin, hwork,
      Attempt.exec_orElseAs_ok.mp hcommit⟩
    cases hr : b.strategies.find i.assetType with
    | error e => rw [hr] at hfind; cases hfind
    | ok t => rw [hr] at hfind; cases hfind; rfl
  · rintro ⟨strategy, s₁, s₂, hfind, hbegin, hwork, hcommit⟩
    rw [Attempt.exec_bind_ok (by rw [hfind]; rfl),
      Attempt.exec_bind_ok (Attempt.exec_orElseAs_ok.mpr hbegin), Attempt.exec_onFailure_eq_ok,
      Attempt.exec_bind_ok hwork, Attempt.exec_bind_ok (Attempt.exec_orElseAs_ok.mpr hcommit)]
    rfl

/-- A visit's transaction fails if there is no strategy, if it cannot be opened, or if the work or
the commit fails in it; in the last two cases it is rolled back. -/
theorem exec_process_error (h : (b.process job i start last).exec s = (.error e, s')) :
    (∃ cause, b.strategies.find i.assetType = .error cause ∧ e = .dispatch cause ∧ s' = s) ∨
    (∃ cause, b.store.begin.exec s = (.error cause, s') ∧ e = .storage cause) ∨
    ∃ strategy s₁ t, b.strategies.find i.assetType = .ok strategy ∧
      b.store.begin.exec s = (.ok (), s₁) ∧ s' = (b.store.rollback.exec t).2 ∧
      ((b.work job strategy i start last).exec s₁ = (.error e, t) ∨
        ∃ saved s₂ cause, (b.work job strategy i start last).exec s₁ = (.ok saved, s₂) ∧
          b.store.commit.exec s₂ = (.error cause, t) ∧ e = .storage cause) := by
  rcases Attempt.exec_bind_eq_error.mp h with h | ⟨strategy, t, hfind, h⟩
  · obtain ⟨hfind, rfl⟩ := Prod.mk.inj h
    cases hr : b.strategies.find i.assetType with
    | error cause =>
        rw [hr] at hfind
        cases hfind
        exact .inl ⟨cause, rfl, rfl, rfl⟩
    | ok strategy => rw [hr] at hfind; cases hfind
  obtain ⟨hfind, rfl⟩ := Prod.mk.inj hfind
  have hstrategy : b.strategies.find i.assetType = .ok strategy := by
    cases hr : b.strategies.find i.assetType with
    | error e => rw [hr] at hfind; cases hfind
    | ok t => rw [hr] at hfind; cases hfind; rfl
  rcases Attempt.exec_bind_eq_error.mp h with hbegin | ⟨⟨⟩, s₁, hbegin, h⟩
  · obtain ⟨cause, hfailed, rfl⟩ := Attempt.exec_orElseAs_eq_error.mp hbegin
    exact .inr (.inl ⟨cause, hfailed, rfl⟩)
  obtain ⟨t, hbody, rfl⟩ := Attempt.exec_onFailure_eq_error.mp h
  refine .inr (.inr ⟨strategy, s₁, t, hstrategy, Attempt.exec_orElseAs_ok.mp hbegin, rfl, ?_⟩)
  rcases Attempt.exec_bind_eq_error.mp hbody with hwork | ⟨saved, s₂, hwork, hrest⟩
  · exact .inl hwork
  · rcases Attempt.exec_bind_eq_error.mp hrest with hcommit | ⟨-, s₃, -, hpure⟩
    · obtain ⟨cause, hfailed, rfl⟩ := Attempt.exec_orElseAs_eq_error.mp hcommit
      exact .inr ⟨saved, s₂, cause, hwork, hfailed, rfl⟩
    · cases hpure

/-- A visit's transaction that fails, at whatever point, leaves what is committed as it was. -/
theorem process_error (laws : b.Transactional ledger)
    (h : (b.process job i start last).exec s = (.error e, s')) :
    (ledger s'.world).committed = (ledger s.world).committed := by
  rcases exec_process_error h with ⟨-, -, -, rfl⟩ | ⟨cause, hbegin, -⟩ |
    ⟨strategy, s₁, t, -, hbegin, rfl, hfails⟩
  · rfl
  · exact laws.store.begin.error s cause s' hbegin
  · -- The transaction is open: whatever fails now is rolled back.
    have hopened := laws.store.begin.committed_eq
      (fun l l' hl => hl ▸ Ledger.committed_begin l) hbegin
    rw [laws.store.rollback]
    rcases hfails with hwork | ⟨saved, s₂, cause, hwork, hcommit, -⟩
    · exact (committed_work laws strategy hwork).trans hopened
    · rw [laws.store.commit.error s₂ cause t hcommit]
      exact (committed_work laws strategy hwork).trans hopened

/-- A visit's transaction that succeeds keeps what it gathered, and a backfill the flag with it. -/
theorem process_ok (laws : b.Transactional ledger)
    (h : (b.process job i start last).exec s = (.ok saved, s')) :
    ∃ rows, b.Gathers ledger job i start last (ledger s.world) saved rows ∧
      (ledger s'.world).committed = keptBy job i (ledger s.world) rows := by
  obtain ⟨strategy, s₁, s₂, hfind, hbegin, hwork, hcommit⟩ := exec_process_ok.mp h
  obtain ⟨rows, hgathers, hkept⟩ := work_ok laws hfind (laws.store.begin.ok s _ s₁ hbegin) hwork
  refine ⟨rows, hgathers, ?_⟩
  rw [laws.store.commit.ok s₂ _ s' hcommit, hkept]

end Batch

end DailyBars
