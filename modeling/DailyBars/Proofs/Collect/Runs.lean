import DailyBars.Proofs.Rehearsal.Store

/-!
# Sequences of runs

A batch run, and with it a whole sequence of runs, is a series of visits between which the store is
left alone. So whatever holds of every visit holds of every change to what is committed: nothing is
kept of a visit that failed, and the completion flags go from false to true, each in the commit that
also keeps the rows of the walk through that instrument's history.
-/

namespace DailyBars

variable {σ : Type}

/-- A visit that was made: what it was asked to do, and the session and the outcome before and after
it. -/
structure Visit (σ : Type) where
  job : Job
  start : Date
  last : Date
  instrument : Instrument
  before : Session σ
  outcomeBefore : Outcome
  after : Session σ
  outcomeAfter : Outcome

/-- A run of a job on a day. -/
structure BatchRun where
  job : Job
  day : Date
  deriving DecidableEq

namespace Batch

/-- The visit is one that the batch makes. -/
def Makes (b : Batch σ) (v : Visit σ) : Prop :=
  Act.exec (b.visit v.job v.start v.last v.outcomeBefore v.instrument) v.before =
    (v.outcomeAfter, v.after)

/-- Runs a job on a day; a backfill goes back to the start of the history. -/
def perform (b : Batch σ) (r : BatchRun) : Attempt σ CollectError Outcome :=
  match r.job with
  | .collection => b.collectOn r.day
  | .backfill => b.backfillUntil r.day

/-- Runs one job after the other, whether they succeed or fail. -/
def performAll (b : Batch σ) : List BatchRun → Act σ Unit
  | [] => return ()
  | r :: rs => do
    let _ ← (b.perform r).run
    b.performAll rs

end Batch

namespace Visit

/-- The visit was counted as a success. -/
def Succeeded (v : Visit σ) : Prop := ∃ saved, v.outcomeAfter = v.outcomeBefore.addSuccess saved

/-- The visit was counted as a failure, or as skipped. -/
def FailedOrSkipped (v : Visit σ) : Prop :=
  v.outcomeAfter = v.outcomeBefore.addSkipped ∨
    ∃ kind, v.outcomeAfter = v.outcomeBefore.addFailure kind

/-- What a visit does to what is committed. -/
structure Atomic (v : Visit σ) (b : Batch σ) (ledger : σ → Ledger) : Prop where
  /-- Every visit is counted. -/
  counted : v.Succeeded ∨ v.FailedOrSkipped
  /-- Nothing is kept of a visit that did not succeed. -/
  failed : v.FailedOrSkipped →
    (ledger v.after.world).committed = (ledger v.before.world).committed
  /-- Flags change only in a backfill of the instrument that they belong to, and together with the
  commit of all the rows of an error-free walk in the same transaction. -/
  flags : (ledger v.after.world).instruments ≠ (ledger v.before.world).instruments →
    v.job = .backfill ∧ ∃ saved rows,
      b.Gathers ledger .backfill v.instrument v.start v.last (ledger v.before.world) saved rows ∧
      (ledger v.after.world).committed =
        (Ledger.flagged [v.instrument.id] (ledger v.before.world).instruments,
          (ledger v.before.world).rows ++ rows)
  /-- A collection changes no flag. -/
  collection : v.job = .collection →
    (ledger v.after.world).instruments = (ledger v.before.world).instruments
  /-- A backfill that succeeds ends with the flag set. -/
  backfill : v.job = .backfill → v.Succeeded →
    (ledger v.after.world).instruments =
      Ledger.flagged [v.instrument.id] (ledger v.before.world).instruments ∧
    ∀ i ∈ (ledger v.after.world).instruments, i.id = v.instrument.id → i.backfillCompleted

theorem not_failedOrSkipped {v : Visit σ} (h : v.Succeeded) : ¬ v.FailedOrSkipped := by
  obtain ⟨saved, h⟩ := h
  rintro (hs | ⟨kind, hf⟩)
  · have hsuccess := congrArg Outcome.success (h.symm.trans hs)
    simp [Outcome.addSuccess, Outcome.addSkipped] at hsuccess
  · have hsuccess := congrArg Outcome.success (h.symm.trans hf)
    cases kind <;> simp [Outcome.addSuccess, Outcome.addFailure] at hsuccess

end Visit

/-! ### A single visit -/

namespace Batch

variable {b : Batch σ} {ledger : σ → Ledger}

@[simp] theorem world_logFailure (job : Job) (i : Instrument) (e : CollectError) (s : Session σ) :
    ((logFailure job i e).exec s).2.world = s.world := by
  unfold logFailure
  cases e.kind <;> rfl

/-- A visit does one of three things: it is skipped, or it fails, and both leave what is committed as
it was, or it succeeds and keeps what it gathered. -/
theorem visit_cases (laws : b.Transactional ledger) {v : Visit σ} (h : b.Makes v) :
    (v.FailedOrSkipped ∧ (ledger v.after.world).committed = (ledger v.before.world).committed) ∨
    ∃ saved rows, v.outcomeAfter = v.outcomeBefore.addSuccess saved ∧
      b.Gathers ledger v.job v.instrument v.start v.last (ledger v.before.world) saved rows ∧
      (ledger v.after.world).committed = keptBy v.job v.instrument (ledger v.before.world) rows := by
  unfold Makes visit at h
  split at h
  · obtain ⟨hskip, hafter⟩ := Prod.mk.inj h
    refine .inl ⟨.inl hskip.symm, ?_⟩
    rw [← hafter]
  · rw [Act.exec_bind, Act.exec_run] at h
    rcases hp : (b.process v.job v.instrument v.start v.last).exec v.before with ⟨r, s₁⟩
    rw [hp] at h
    cases r with
    | error e =>
        obtain ⟨hfail, hafter⟩ := Prod.mk.inj h
        refine .inl ⟨.inr ⟨e.kind, hfail.symm⟩, ?_⟩
        have hworld : v.after.world = s₁.world := by
          rw [← hafter]
          exact world_logFailure v.job v.instrument e s₁
        rw [hworld]
        exact process_error laws hp
    | ok saved =>
        obtain ⟨hsuccess, hafter⟩ := Prod.mk.inj h
        obtain ⟨rows, hgathers, hkept⟩ := process_ok laws hp
        refine .inr ⟨saved, rows, hsuccess.symm, hgathers, ?_⟩
        rw [← hafter]
        exact hkept

/-- Every visit is atomic. -/
theorem atomic_of_makes (laws : b.Transactional ledger) {v : Visit σ} (h : b.Makes v) :
    v.Atomic b ledger := by
  rcases visit_cases laws h with ⟨hnot, hkept⟩ | ⟨saved, rows, hsuccess, hgathers, hkept⟩
  · have hsame : (ledger v.after.world).instruments = (ledger v.before.world).instruments :=
      congrArg Prod.fst hkept
    exact ⟨.inr hnot, fun _ => hkept, fun h => absurd hsame h, fun _ => hsame,
      fun _ h => absurd hnot (Visit.not_failedOrSkipped h)⟩
  · have hnot : ¬ v.FailedOrSkipped := Visit.not_failedOrSkipped ⟨saved, hsuccess⟩
    cases hjob : v.job with
    | collection =>
        rw [hjob] at hkept
        have hsame : (ledger v.after.world).instruments = (ledger v.before.world).instruments :=
          congrArg Prod.fst hkept
        refine ⟨.inl ⟨saved, hsuccess⟩, fun h => absurd h hnot, fun h => absurd hsame h,
          fun _ => hsame, ?_⟩
        rw [hjob]
        intro h
        cases h
    | backfill =>
        rw [hjob] at hkept hgathers
        have hflagged : (ledger v.after.world).instruments =
            Ledger.flagged [v.instrument.id] (ledger v.before.world).instruments :=
          congrArg Prod.fst hkept
        refine ⟨.inl ⟨saved, hsuccess⟩, fun h => absurd h hnot,
          fun _ => ⟨hjob, saved, rows, hgathers, hkept⟩, ?_, fun _ _ => ⟨hflagged, ?_⟩⟩
        · rw [hjob]
          intro h
          cases h
        · intro i hi hid
          rw [hflagged] at hi
          exact Ledger.backfillCompleted_of_mem_flagged hi hid

/-! ### Runs -/

/-- From one session to another by visits alone: what is committed does not change between them. -/
inductive History (b : Batch σ) (ledger : σ → Ledger) :
    Session σ → List (Visit σ) → Session σ → Prop where
  | quiet {s s' : Session σ} :
      (ledger s'.world).committed = (ledger s.world).committed → History b ledger s [] s'
  | visit {s s' : Session σ} {v : Visit σ} {vs : List (Visit σ)} :
      (ledger v.before.world).committed = (ledger s.world).committed → b.Makes v →
      History b ledger v.after vs s' → History b ledger s (v :: vs) s'

theorem History.append {s s' s'' : Session σ} {visits visits' : List (Visit σ)}
    (h : b.History ledger s visits s') (h' : b.History ledger s' visits' s'') :
    b.History ledger s (visits ++ visits') s'' := by
  induction h with
  | quiet hsame =>
      cases h' with
      | quiet hsame' => exact .quiet (hsame'.trans hsame)
      | visit hbefore hmakes hrest => exact .visit (hbefore.trans hsame) hmakes hrest
  | visit hbefore hmakes _ ih => exact .visit hbefore hmakes (ih h')

/-- From one session to another by visits of some jobs. -/
def Leads (b : Batch σ) (ledger : σ → Ledger) (jobs : List Job) (s s' : Session σ) : Prop :=
  ∃ visits, b.History ledger s visits s' ∧ ∀ v ∈ visits, v.job ∈ jobs

namespace Leads

variable {jobs jobs' : List Job} {s s' s'' : Session σ}

theorem quiet (h : (ledger s'.world).committed = (ledger s.world).committed) :
    b.Leads ledger jobs s s' :=
  ⟨[], .quiet h, by simp⟩

theorem visit {v : Visit σ} (h : b.Makes v) (hjob : v.job ∈ jobs) :
    b.Leads ledger jobs v.before v.after :=
  ⟨[v], .visit rfl h (.quiet rfl), by simpa using hjob⟩

theorem mono (h : b.Leads ledger jobs s s') (hsub : ∀ j ∈ jobs, j ∈ jobs') :
    b.Leads ledger jobs' s s' := by
  obtain ⟨visits, hhistory, hjobs⟩ := h
  exact ⟨visits, hhistory, fun v hv => hsub _ (hjobs v hv)⟩

theorem trans (h : b.Leads ledger jobs s s') (h' : b.Leads ledger jobs s' s'') :
    b.Leads ledger jobs s s'' := by
  obtain ⟨visits, hhistory, hjobs⟩ := h
  obtain ⟨visits', hhistory', hjobs'⟩ := h'
  refine ⟨visits ++ visits', hhistory.append hhistory', fun v hv => ?_⟩
  rcases List.mem_append.mp hv with hv | hv
  · exact hjobs v hv
  · exact hjobs' v hv

/-- What leaves the store alone makes no visit. -/
theorem ofAct {ε α : Type} {x : Act σ α} (h : ((x.exec s).2).world = s.world) :
    b.Leads ledger jobs s ((Attempt.ofAct x : Attempt σ ε α).exec s).2 :=
  quiet (by rw [Attempt.exec_ofAct, h])

theorem bind {ε α β : Type} {x : Attempt σ ε α} {f : α → Attempt σ ε β}
    (hx : b.Leads ledger jobs s (x.exec s).2)
    (hf : ∀ a t, b.Leads ledger jobs t ((f a).exec t).2) :
    b.Leads ledger jobs s ((x >>= f).exec s).2 := by
  rw [Attempt.exec_bind]
  rcases hr : x.exec s with ⟨r, t⟩
  rw [hr] at hx
  cases r with
  | error e => exact hx
  | ok a => exact hx.trans (hf a t)

end Leads

theorem leads_visitAll (job : Job) (start last : Date) (o : Outcome) (is : List Instrument)
    (s : Session σ) :
    b.Leads ledger [job] s (Act.exec (b.visitAll job start last o is) s).2 := by
  induction is generalizing o s with
  | nil => exact Leads.quiet rfl
  | cons i rest ih =>
      rw [visitAll, Act.exec_bind]
      let r := Act.exec (b.visit job start last o i) s
      have hmakes : b.Makes ⟨job, start, last, i, s, o, r.2, r.1⟩ := rfl
      exact (Leads.visit hmakes (by simp)).trans (ih _ _)

theorem committed_loadPage (laws : b.Transactional ledger) (job : Job) (after : Option Int)
    (s : Session σ) :
    (ledger ((b.loadPage job after).exec s).2.world).committed = (ledger s.world).committed := by
  unfold loadPage
  rw [Attempt.exec_orElseAs, Attempt.exec_onFailure]
  rcases hr : (b.watchlist.findPage job.visitsCompleted after
    b.config.instrumentPageSize).exec s with ⟨r, s₁⟩
  have hkept := (laws.findPage _ _ _).committed_eq (fun l l' hl => hl ▸ rfl) hr
  cases r <;> exact hkept

theorem leads_visitPages (laws : b.Transactional ledger) (job : Job) (start last : Date)
    (after : Option Int) (o : Outcome) (fuel : Nat) (s : Session σ) :
    b.Leads ledger [job] s ((b.visitPages job start last after o fuel).exec s).2 := by
  induction fuel generalizing after o s with
  | zero => exact Leads.quiet rfl
  | succ fuel ih =>
      rw [visitPages]
      refine Leads.bind (Leads.quiet (committed_loadPage laws job after s)) fun page t => ?_
      cases page.getLast? with
      | none => exact Leads.quiet rfl
      | some i =>
          refine Leads.bind (leads_visitAll job start last o page t) fun o' t' => ?_
          split
          · exact Leads.quiet rfl
          · exact ih _ _ _

theorem world_report (o : Outcome) (job : String) (s : Session σ) :
    ((o.report job : Act σ Unit).exec s).2.world = s.world := by
  unfold Outcome.report
  rw [Act.exec_bind]
  split <;> rfl

theorem leads_run (laws : b.Transactional ledger) (job : Job) (start last : Date) (s : Session σ) :
    b.Leads ledger [job] s ((b.run job start last).exec s).2 := by
  unfold run
  refine Leads.bind (Leads.ofAct rfl) fun started t => ?_
  refine Leads.bind (Leads.ofAct rfl) fun _ t => ?_
  refine Leads.bind (leads_visitPages laws job start last none {} pageLimit t) fun o t => ?_
  refine Leads.bind (Leads.ofAct rfl) fun ended t => ?_
  refine Leads.bind (Leads.ofAct (world_report _ _ t)) fun _ t => ?_
  exact Leads.quiet rfl

theorem leads_perform (laws : b.Transactional ledger) (r : BatchRun) (s : Session σ) :
    b.Leads ledger [r.job] s ((b.perform r).exec s).2 := by
  obtain ⟨job, day⟩ := r
  cases job with
  | collection => exact leads_run laws .collection day day s
  | backfill => exact leads_run laws .backfill b.config.backfillStart day s

/-- A sequence of runs is a series of visits of their jobs. -/
theorem leads_performAll (laws : b.Transactional ledger) (runs : List BatchRun) (s : Session σ) :
    b.Leads ledger (runs.map (·.job)) s (Act.exec (b.performAll runs) s).2 := by
  induction runs generalizing s with
  | nil => exact Leads.quiet rfl
  | cons r rest ih =>
      rw [performAll, Act.exec_bind, Act.exec_run]
      refine Leads.trans ((leads_perform laws r s).mono ?_) ((ih _).mono ?_)
      · simp
      · intro j hj
        exact List.mem_cons_of_mem _ hj

/-! ### What a sequence of runs keeps -/

/-- The flags that visits set are those of instruments whose backfill succeeded. -/
theorem History.flagged (laws : b.Transactional ledger) {s s' : Session σ} {visits : List (Visit σ)}
    (h : b.History ledger s visits s') :
    ∃ ids, (ledger s'.world).instruments = Ledger.flagged ids (ledger s.world).instruments ∧
      ∀ id ∈ ids, ∃ v ∈ visits, v.job = .backfill ∧ v.Succeeded ∧ v.instrument.id = id := by
  induction h with
  | quiet hsame =>
      refine ⟨[], ?_, by simp⟩
      rw [Ledger.flagged_nil]
      exact congrArg Prod.fst hsame
  | @visit s s' v vs hbefore hmakes _ ih =>
      obtain ⟨ids, hids, hvisits⟩ := ih
      have hstart : (ledger v.before.world).instruments = (ledger s.world).instruments :=
        congrArg Prod.fst hbefore
      have hrest : ∀ id ∈ ids, ∃ w ∈ v :: vs, w.job = .backfill ∧ w.Succeeded ∧
          w.instrument.id = id := by
        intro id hid
        obtain ⟨w, hw, hset⟩ := hvisits id hid
        exact ⟨w, List.mem_cons_of_mem _ hw, hset⟩
      have hatomic := atomic_of_makes laws hmakes
      by_cases hsame : (ledger v.after.world).instruments = (ledger v.before.world).instruments
      · refine ⟨ids, ?_, hrest⟩
        rw [hids, hsame, hstart]
      · -- A visit that changes the flags is a backfill that succeeded, and it sets its own.
        obtain ⟨hjob, saved, rows, -, hkept⟩ := hatomic.flags hsame
        have hsucceeded : v.Succeeded := by
          refine hatomic.counted.resolve_right fun hnot => hsame ?_
          exact congrArg Prod.fst (hatomic.failed hnot)
        refine ⟨v.instrument.id :: ids, ?_, ?_⟩
        · have hset := congrArg Prod.fst hkept
          change (ledger v.after.world).instruments = _ at hset
          rw [hids, hset, hstart, Ledger.flagged_flagged]
          rfl
        · intro id hid
          rcases List.mem_cons.mp hid with rfl | hid
          · exact ⟨v, List.mem_cons_self, hjob, hsucceeded, rfl⟩
          · exact hrest id hid

/-- **Visits are atomic, and nothing else changes the store.** Every visit of a batch keeps all or
nothing. Any sequence of runs, with failures at any points, is a series of such visits between which
nothing committed changes; each visit is one of the jobs that were run, and the flags that are set at
the end are those that were set before and those of instruments whose backfill succeeded. -/
theorem performAll_atomic (laws : b.Transactional ledger) (runs : List BatchRun) (s : Session σ) :
    (∀ v, b.Makes v → v.Atomic b ledger) ∧
    ∃ visits, b.History ledger s visits (Act.exec (b.performAll runs) s).2 ∧
      (∀ v ∈ visits, v.job ∈ runs.map (·.job)) ∧
      ∃ ids, (ledger (Act.exec (b.performAll runs) s).2.world).instruments =
          Ledger.flagged ids (ledger s.world).instruments ∧
        ∀ id ∈ ids, ∃ v ∈ visits, v.job = .backfill ∧ v.Succeeded ∧ v.instrument.id = id := by
  obtain ⟨visits, hhistory, hjobs⟩ := leads_performAll laws runs s
  exact ⟨fun v hv => atomic_of_makes laws hv, visits, hhistory, hjobs, hhistory.flagged laws⟩

/-- A store whose second commit fails, over a backfill of two instruments and a collection after
it. -/
theorem performAll_atomic_of_failed_commit :
    let instrument (id : Int) (code : String) : Instrument :=
      ⟨id, code, none, none, some .domesticStock, false⟩
    let failsSecond (_ : Nat) (c : StoreCall) : Option StorageError :=
      if c = .commit 1 then some (.transaction "connection lost") else none
    let instruments := [instrument 1 "005930", instrument 2 "000660"]
    let world : RehearsalWorld :=
      { store := { RehearsalStore.ofLedger (.ofInstruments instruments) with plan := failsSecond }
        market := ⟨2, .newestFirst, false, [("005930", [default]), ("000660", [default])], [], [], []⟩
        locks := .empty }
    let batch := RehearsalWorld.batch (.full 2) ⟨10, 2, default⟩
    let ledger := RehearsalStore.ledgerOf RehearsalWorld.storePart
    let s : Session RehearsalWorld := ⟨world, ⟨default, 0⟩, []⟩
    let s' := (Act.exec (batch.performAll [⟨.backfill, default⟩, ⟨.collection, default⟩]) s).2
    (∀ v, batch.Makes v → v.Atomic batch ledger) ∧
    ∃ visits, batch.History ledger s visits s' ∧
      (∀ v ∈ visits, v.job ∈ [Job.backfill, .collection]) ∧
      ∃ ids, (ledger s'.world).instruments = Ledger.flagged ids instruments ∧
        ∀ id ∈ ids, ∃ v ∈ visits, v.job = .backfill ∧ v.Succeeded ∧ v.instrument.id = id := by
  intro instrument failsSecond instruments world batch ledger s s'
  exact performAll_atomic (RehearsalWorld.transactional_batch (.full 2) ⟨10, 2, default⟩) _ s

end Batch

end DailyBars
