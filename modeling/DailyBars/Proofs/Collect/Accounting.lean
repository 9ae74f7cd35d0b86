import DailyBars.Proofs.Collect.Moves
import DailyBars.Proofs.Collect.Pages
import DailyBars.Proofs.Rehearsal.Moves
import DailyBars.Proofs.Storage.Inserts
import Mathlib.Algebra.GroupWithZero.Nat

/-!
# The accounts of a run

Every visit is counted once, by its end, and a run that is over gives the count of all its visits. So
the numbers of an outcome are those of the visits that ended in each way. The rows that a visit saved
are counted by its pages, and they are committed all at once or not at all; so the saved rows of an
outcome are the rows by which the store has grown.
-/

namespace DailyBars

variable {σ : Type}

/-! ### Counting visits -/

namespace VisitEnd

/-- The number of rows that a visit saved; a visit whose transaction was not kept saved none. -/
def rows : VisitEnd → Nat
  | saved n => n
  | _ => 0

/-- The transaction of the visit was kept. -/
def isSaved : VisitEnd → Bool
  | saved _ => true
  | _ => false

/-- The visit was skipped. -/
def isSkipped : VisitEnd → Bool
  | skipped => true
  | _ => false

/-- The visit failed because the broker did. -/
def isOfBroker : VisitEnd → Bool
  | failed (.broker _) => true
  | _ => false

/-- The visit failed because a store did. -/
def isOfStore : VisitEnd → Bool
  | failed (.storage _) => true
  | _ => false

/-- The visit failed, but neither because of the broker nor because of a store. -/
def isOfElse : VisitEnd → Bool
  | failed (.broker _) => false
  | failed (.storage _) => false
  | failed _ => true
  | _ => false

/-- Every visit ends in exactly one of the five ways. -/
theorem countP_ways (e : VisitEnd) :
    [e].countP (·.isSaved) + [e].countP (·.isOfBroker) + [e].countP (·.isOfStore) +
      [e].countP (·.isOfElse) + [e].countP (·.isSkipped) = 1 := by
  cases e with
  | skipped => rfl
  | saved n => rfl
  | failed e => cases e <;> rfl

end VisitEnd

namespace Outcome

/-- What counting a visit adds to each of the numbers. -/
theorem count_eq (o : Outcome) (e : VisitEnd) :
    o.count e =
      { o with
        total := o.total + ([e].countP (·.isSaved) + [e].countP (·.isOfBroker) +
          [e].countP (·.isOfStore) + [e].countP (·.isOfElse))
        success := o.success + [e].countP (·.isSaved)
        recoverable := o.recoverable + [e].countP (·.isOfBroker)
        critical := o.critical + [e].countP (·.isOfStore)
        unexpected := o.unexpected + [e].countP (·.isOfElse)
        skipped := o.skipped + [e].countP (·.isSkipped)
        savedRows := o.savedRows + e.rows } := by
  cases e with
  | skipped => rfl
  | saved n => rfl
  | failed e => cases e <;> rfl

/-- The outcome is the exact account of visits that ended so. -/
structure Accounts (o : Outcome) (ends : List VisitEnd) : Prop where
  total : o.total = o.success + o.recoverable + o.critical + o.unexpected
  visits : o.total + o.skipped = ends.length
  success : o.success = ends.countP (·.isSaved)
  recoverable : o.recoverable = ends.countP (·.isOfBroker)
  critical : o.critical = ends.countP (·.isOfStore)
  unexpected : o.unexpected = ends.countP (·.isOfElse)
  skipped : o.skipped = ends.countP (·.isSkipped)
  savedRows : o.savedRows = (ends.map (·.rows)).sum

namespace Accounts

variable {o : Outcome} {ends : List VisitEnd}

theorem nil : ({} : Outcome).Accounts [] := by
  constructor <;> rfl

/-- Counting one more visit keeps the account exact. -/
theorem count (h : o.Accounts ends) (e : VisitEnd) : (o.count e).Accounts (ends ++ [e]) := by
  obtain ⟨total, visits, success, recoverable, critical, unexpected, skipped, savedRows⟩ := h
  have hways := e.countP_ways
  rw [count_eq]
  constructor <;> simp only [List.countP_append, List.length_append, List.length_singleton,
    List.map_append, List.sum_append, List.map_singleton, List.sum_singleton] <;> omega

theorem foldl (h : o.Accounts ends) (more : List VisitEnd) :
    (more.foldl Outcome.count o).Accounts (ends ++ more) := by
  induction more generalizing o ends with
  | nil => simpa using h
  | cons e rest ih => simpa using ih (h.count e)

/-- The time that a run took is not part of the account. -/
theorem elapsed (h : o.Accounts ends) (elapsed : Nat) :
    ({ o with elapsed } : Outcome).Accounts ends := by
  obtain ⟨total, visits, success, recoverable, critical, unexpected, skipped, savedRows⟩ := h
  exact ⟨total, visits, success, recoverable, critical, unexpected, skipped, savedRows⟩

end Accounts

end Outcome

namespace Batch

variable {b : Batch σ} {ledger : σ → Ledger} {inv : σ → Prop} {job : Job} {start last cursor : Date}
  {strategy : Strategy} {key : InstrumentKey} {s s' : Session σ} {bars : List Bar} {saved : Nat}
  {i : Instrument} {v : Visit σ} {visits : List (Visit σ)} {e : StorageError}

/-! ### Counting rows -/

/-- A batch on a store with transactions that counts the rows which it inserts. The store counts
right as long as something holds of the world that nothing in a run puts to an end. -/
structure CountsRows (b : Batch σ) (ledger : σ → Ledger) (inv : σ → Prop) : Prop where
  transactional : b.Transactional ledger
  keeps : b.Moves fun w w' => inv w → inv w'
  saveAll : ∀ key bars s saved s', inv s.world →
    (b.store.saveAll key bars).exec s = (.ok saved, s') →
    ∃ rows, ledger s'.world = (ledger s.world).addRows rows ∧ rows.length = saved

/-- The draft grows by a number of rows, and the invariant is kept. -/
def Grows (ledger : σ → Ledger) (inv : σ → Prop) (n : Nat) (w w' : σ) : Prop :=
  inv w' ∧ ∃ rows, ledger w' = (ledger w).addRows rows ∧ rows.length = n

namespace Grows

variable {m n : Nat} {w w₁ w₂ : σ}

theorem ofEq (hinv : inv w₁) (h : ledger w₁ = ledger w) : Grows ledger inv 0 w w₁ :=
  ⟨hinv, [], by rw [h, Ledger.addRows_nil], rfl⟩

theorem trans (h : Grows ledger inv m w w₁) (h' : Grows ledger inv n w₁ w₂) :
    Grows ledger inv (m + n) w w₂ := by
  obtain ⟨-, rows, hrows, hm⟩ := h
  obtain ⟨hinv, rows', hrows', hn⟩ := h'
  refine ⟨hinv, rows ++ rows', ?_, by rw [List.length_append, hm, hn]⟩
  rw [hrows', hrows, Ledger.addRows_addRows]

end Grows

namespace CountsRows

/-- A page that is stored adds as many rows as it says. -/
theorem saveNew (laws : b.CountsRows ledger inv) {page : List Bar} (hinv : inv s.world)
    (hpage : page ≠ []) (h : (b.store.saveNew key page).exec s = (.ok saved, s')) :
    Grows ledger inv saved s.world s'.world := by
  obtain ⟨oldest, newest, days, s₁, -, -, hdays, hsaved⟩ := PriceStore.saveNew_ok hpage h
  have hinv₁ := (laws.keeps.existingDates key oldest newest).of_exec hdays hinv
  have hasked : ledger s₁.world = ledger s.world :=
    (laws.transactional.store.existingDates key oldest newest).ok s days s₁ hdays
  rcases hsaved with ⟨-, rfl, hworld⟩ | ⟨-, s₂, hsave, hworld⟩
  · rw [hworld]
    exact Grows.ofEq hinv₁ hasked
  · have hinv₂ := (laws.keeps.saveAll key (freshBars days page)).of_exec hsave hinv₁
    obtain ⟨rows, hrows, hcount⟩ := laws.saveAll key _ s₁ saved s₂ hinv₁ hsave
    rw [hworld]
    exact ⟨hinv₂, rows, by rw [hrows, hasked], hcount⟩

/-- A gathering adds as many rows as it says. -/
theorem pages (laws : b.CountsRows ledger inv) (hinv : inv s.world)
    (h : b.Pages job strategy key start cursor s bars saved s') :
    Grows ledger inv saved s.world s'.world := by
  have fetch {first last : Date} {s s₁ : Session σ} {page : List Bar} (hinv : inv s.world)
      (hfetch : (b.prices (.ofAssetType strategy.assetType) key first last).exec s = (.ok page, s₁)) :
      Grows ledger inv 0 s.world s₁.world := by
    have hkept := (laws.keeps.prices _ key first last).of_exec hfetch hinv
    exact Grows.ofEq hkept ((laws.transactional.prices _ key first last).ok s page s₁ hfetch)
  induction h with
  | empty hfetch hworld =>
      rw [hworld]
      exact fetch hinv hfetch
  | @last cursor s s₁ s₂ s' page n hfetch hpage hsave _ hworld =>
      have hfetched := fetch hinv hfetch
      rw [hworld, ← Nat.zero_add n]
      exact hfetched.trans (laws.saveNew hfetched.1 hpage hsave)
  | @next cursor s s₁ s₂ s₃ s' page bars n m next hfetch hpage hsave _ hworld _ ih =>
      have hfetched := fetch hinv hfetch
      have hsaved := laws.saveNew hfetched.1 hpage hsave
      rw [hworld] at ih
      rw [← Nat.zero_add n]
      exact (hfetched.trans hsaved).trans (ih hsaved.1)

/-- A visit's transaction that is kept commits as many rows as it says. -/
theorem process (laws : b.CountsRows ledger inv) (hinv : inv s.world)
    (h : (b.process job i start last).exec s = (.ok saved, s')) :
    ∃ rows, (ledger s'.world).rows = (ledger s.world).rows ++ rows ∧ rows.length = saved := by
  obtain ⟨strategy, s₁, s₂, -, hbegin, hwork, hcommit⟩ := exec_process_ok.mp h
  have hinv₁ := laws.keeps.begin.of_exec hbegin hinv
  obtain ⟨t, hgather, hkept⟩ := gather_of_work_ok (l := ledger s.world) laws.transactional hwork
  obtain ⟨key, bars, -, hpages⟩ := pages_of_gather hgather
  obtain ⟨-, rows, hrows, hcount⟩ := laws.pages hinv₁ hpages
  rw [laws.transactional.store.begin.ok s _ s₁ hbegin] at hrows
  have hcommitted : (ledger s'.world).committed = keptBy job i (ledger s.world) rows := by
    rw [laws.transactional.store.commit.ok s₂ _ s' hcommit, hkept rows hrows]
  refine ⟨rows, (congrArg Prod.snd hcommitted).trans ?_, hcount⟩
  cases job <;> rfl

/-- A visit commits the rows that its end counts. -/
theorem visit (laws : b.CountsRows ledger inv) (hmakes : b.Makes v) (hinv : inv v.before.world) :
    ∃ rows, (ledger v.after.world).rows = (ledger v.before.world).rows ++ rows ∧
      rows.length = (b.endOf v).rows := by
  by_cases hnone : v.instrument.assetType = none
  · obtain ⟨event, hafter⟩ := after_of_skipped hmakes hnone
    refine ⟨[], by rw [hafter, List.append_nil], ?_⟩
    rw [endOf_eq_skipped.mpr hnone]
    rfl
  · rcases hrun : (b.process v.job v.instrument v.start v.last).exec v.before with ⟨r, t⟩
    obtain ⟨-, hworld⟩ := after_of_processed hmakes hnone hrun
    rw [hworld, endOf_eq_ofResult hnone hrun]
    cases r with
    | ok saved => exact laws.process hinv hrun
    | error e =>
        refine ⟨[], ?_, rfl⟩
        rw [List.append_nil]
        exact congrArg Prod.snd (process_error laws.transactional hrun)

/-- A series of visits commits the rows that their ends count. -/
theorem history (laws : b.CountsRows ledger inv) (h : b.History ledger s visits s')
    (hinv : ∀ v ∈ visits, inv v.before.world) :
    ∃ added, (ledger s'.world).rows = (ledger s.world).rows ++ added ∧
      added.length = ((visits.map b.endOf).map (·.rows)).sum := by
  induction h with
  | quiet hsame => exact ⟨[], by rw [List.append_nil]; exact congrArg Prod.snd hsame, rfl⟩
  | @visit s s' v vs hbefore hmakes _ ih =>
      obtain ⟨rows, hrows, hcount⟩ := laws.visit hmakes (hinv v List.mem_cons_self)
      obtain ⟨added, hadded, hsum⟩ := ih fun w hw => hinv w (List.mem_cons_of_mem _ hw)
      refine ⟨rows ++ added, ?_, by simp [hcount, hsum]⟩
      have hstart : (ledger v.before.world).rows = (ledger s.world).rows := congrArg Prod.snd hbefore
      rw [hadded, hrows, hstart, List.append_assoc]

end CountsRows

/-! ### The account of a run -/

/-- The transaction of a visit gets as far as its commit, which fails. -/
def FailsToCommit (b : Batch σ) (v : Visit σ) (e : StorageError) : Prop :=
  ∃ strategy s₁ saved s₂ t, b.strategies.find v.instrument.assetType = .ok strategy ∧
    b.store.begin.exec v.before = (.ok (), s₁) ∧
    (b.work v.job strategy v.instrument v.start v.last).exec s₁ = (.ok saved, s₂) ∧
    b.store.commit.exec s₂ = (.error e, t)

/-- A visit whose commit fails has failed because of the store. -/
theorem endOf_of_failsToCommit (h : b.FailsToCommit v e) : b.endOf v = .failed (.storage e) := by
  obtain ⟨strategy, s₁, saved, s₂, t, hfind, hbegin, hwork, hcommit⟩ := h
  have hsome : v.instrument.assetType ≠ none := by
    intro hnone
    rw [hnone] at hfind
    cases hfind
  have hrun : ∃ s', (b.process v.job v.instrument v.start v.last).exec v.before =
      (.error (.storage e), s') := by
    unfold Batch.process
    rw [Attempt.exec_bind_ok (by rw [hfind]; rfl),
      Attempt.exec_bind_ok (Attempt.exec_orElseAs_ok.mpr hbegin)]
    refine ⟨_, Attempt.exec_onFailure_eq_error.mpr ⟨t, ?_, rfl⟩⟩
    rw [Attempt.exec_bind_ok hwork]
    exact Attempt.exec_bind_error (Attempt.exec_orElseAs_eq_error.mpr ⟨e, hcommit, rfl⟩)
  obtain ⟨s', hrun⟩ := hrun
  exact endOf_eq_ofResult hsome hrun

/-- What the result of a run says of its turns. -/
structure AccountsFor (b : Batch σ) (job : Job) (turns : List (Turn σ))
    (r : Except CollectError Outcome) : Prop where
  /-- An outcome is the exact account of the visits. -/
  outcome : ∀ o, r = .ok o → o.Accounts ((Turn.allVisits turns).map b.endOf)
  /-- The visits to instruments without an asset type are the ones that are skipped. -/
  skipped : ∀ v ∈ Turn.allVisits turns, b.endOf v = .skipped ↔ v.instrument.assetType = none
  /-- Such a visit calls nobody: all that it does is to write to the log. -/
  quiet : ∀ v ∈ Turn.allVisits turns, v.instrument.assetType = none →
    ∃ event, v.after = { v.before with log := v.before.log ++ [event] }
  /-- A commit that fails makes the visit a failure of the store. -/
  failedCommit : ∀ v ∈ Turn.allVisits turns, ∀ e, b.FailsToCommit v e →
    b.endOf v = .failed (.storage e)
  /-- There is an error instead of an outcome exactly if a page could not be loaded. -/
  error : ∀ e, r = .error e ↔ ∃ t ∈ turns, (b.loadPage job t.after).exec t.asked = (.error e, t.answered)
  /-- Every instrument of a page that was loaded has been visited. -/
  visited : ∀ t ∈ turns, ∀ page, (b.loadPage job t.after).exec t.asked = (.ok page, t.answered) →
    t.visits.map (·.instrument) = page

/-- The outcome of the turns, whatever time they took, is the account of the visits. -/
theorem Paging.accounts {turns : List (Turn σ)} {r : Except CollectError Outcome} {fuel : Nat}
    {after : Option Int} {elapsed : Nat}
    (h : b.Paging job start last fuel after {} s turns r s') {o : Outcome}
    (ho : r.map (fun o => { o with elapsed }) = .ok o) :
    o.Accounts ((Turn.allVisits turns).map b.endOf) := by
  cases r with
  | error e => cases ho
  | ok o' =>
      cases ho
      rw [h.outcome_eq]
      exact (Outcome.Accounts.nil.foldl _).elapsed elapsed

/-- **The accounts of a run are exact.** Whatever the broker and the store do, a run gives the
account of its visits, or fails because it could not load a page, after it has visited every
instrument of the pages before. On a store with transactions that counts what it inserts, the saved
rows are those by which the store has grown. -/
theorem run_accounts (b : Batch σ) (job : Job) (start last : Date) (s : Session σ) :
    (∃ turns, b.Traces job start last s turns) ∧
    ∀ turns, b.Traces job start last s turns →
      b.AccountsFor job turns ((b.run job start last).exec s).1 ∧
      ∀ ledger inv, b.CountsRows ledger inv → inv s.world →
        ∀ o, ((b.run job start last).exec s).1 = .ok o →
          ∃ added, (ledger ((b.run job start last).exec s).2.world).rows =
              (ledger s.world).rows ++ added ∧ added.length = o.savedRows := by
  refine ⟨exists_traces b job start last s, fun turns htraces => ?_⟩
  obtain ⟨s₀, r, s₁, hworld₀, hpaging, ⟨elapsed, hresult⟩, hworld₁⟩ := htraces
  have answer {t : Turn σ} (ht : t ∈ turns) {answer : Except CollectError (List Instrument)} :
      (b.loadPage job t.after).exec t.asked = (answer, t.answered) ↔ t.answer = answer := by
    rw [hpaging.asks ht, Prod.mk.injEq, and_iff_left rfl]
  have account : ∀ o, ((b.run job start last).exec s).1 = .ok o →
      o.Accounts ((Turn.allVisits turns).map b.endOf) := fun o ho =>
    hpaging.accounts (hresult.symm.trans ho)
  refine ⟨⟨account, fun v _ => endOf_eq_skipped, fun v hv => after_of_skipped (hpaging.makes hv).1,
    fun v _ e => endOf_of_failsToCommit, fun e => ?_, fun t ht page hpage => ?_⟩, ?_⟩
  · have herror : ((b.run job start last).exec s).1 = .error e ↔ r = .error e := by
      rw [hresult]
      cases r <;> simp [Except.map]
    rw [herror, hpaging.error_iff]
    exact exists_congr fun t => and_congr_right fun ht => (answer ht).symm
  · exact hpaging.visits_of_answer ht ((answer ht).mp hpage)
  · intro ledger inv laws hinv o ho
    rw [hworld₁, ← hworld₀, (account o ho).savedRows]
    rw [← hworld₀] at hinv
    refine laws.history (hpaging.history laws.transactional) fun v hv => ?_
    exact (hpaging.moves laws.keeps).2.2 v hv hinv

/-- A rehearsal store that does not count repeats counts the rows that it inserts. -/
theorem countsRows_rehearsal (strategies : Strategies) (config : BatchConfig) :
    (RehearsalWorld.batch strategies config).CountsRows
      (RehearsalStore.ledgerOf RehearsalWorld.storePart) fun w => w.store.countsRepeats = false where
  transactional := RehearsalWorld.transactional_batch strategies config
  keeps := RehearsalWorld.keeps_batch strategies config (fun _ _ _ _ _ h => h) fun _ _ _ h => h
  saveAll key bars s saved s' hinv h := by
    obtain ⟨rows, hinsert, -⟩ := Ledger.exists_insert_eq key bars s.world.store.ledger
    obtain ⟨hsaved, hworld⟩ := RehearsalStore.saveAll_ok (p := RehearsalWorld.storePart) h
    refine ⟨rows, ?_, ?_⟩
    · rw [hworld]
      exact congrArg Prod.snd hinsert
    · have hcounts : (RehearsalWorld.storePart.get s.world).countsRepeats = false := hinv
      rw [hsaved, hcounts]
      exact (congrArg Prod.fst hinsert).symm

/-- A run over instruments of every kind: one that is collected, one that nobody has classified, one
overseas without an exchange, one for which the broker fails, and one whose commit fails. -/
theorem run_accounts_of_mixed_ends :
    let instrument (id : Int) (code : String) (type : Option AssetType) : Instrument :=
      ⟨id, code, none, none, type, false⟩
    let instruments := [instrument 1 "005930" (some .domesticStock), instrument 2 "000000" none,
      instrument 3 "AAPL" (some .overseasStock), instrument 4 "000660" (some .domesticStock),
      instrument 5 "035420" (some .domesticStock)]
    let failsThird (_ : Nat) (c : StoreCall) : Option StorageError :=
      if c = .commit 3 then some (.transaction "connection lost") else none
    let history := [("005930", [default]), ("000660", [default]), ("035420", [default])]
    let world : RehearsalWorld :=
      { store := { RehearsalStore.ofLedger (.ofInstruments instruments) with plan := failsThird }
        market := ⟨2, .newestFirst, false, history, [⟨"000660", 0, .rateLimited⟩], [], []⟩
        locks := .empty }
    let batch := RehearsalWorld.batch (.full 2) ⟨2, 2, default⟩
    let ledger := RehearsalStore.ledgerOf RehearsalWorld.storePart
    let s : Session RehearsalWorld := ⟨world, ⟨default, 0⟩, []⟩
    ∃ turns, batch.Traces .backfill default default s turns ∧
      batch.AccountsFor .backfill turns ((batch.run .backfill default default).exec s).1 ∧
      ∀ o, ((batch.run .backfill default default).exec s).1 = .ok o →
        ∃ added, (ledger ((batch.run .backfill default default).exec s).2.world).rows =
            (ledger world).rows ++ added ∧ added.length = o.savedRows := by
  intro instrument instruments failsThird history world batch ledger s
  obtain ⟨⟨turns, htraces⟩, haccounts⟩ := run_accounts batch .backfill default default s
  obtain ⟨haccount, hrows⟩ := haccounts turns htraces
  exact ⟨turns, htraces, haccount,
    hrows ledger _ (countsRows_rehearsal (.full 2) ⟨2, 2, default⟩) rfl⟩

end Batch

end DailyBars
