import DailyBars.Proofs.Collect.Accounting

/-!
# Alerts are raised for trouble with the stores

What a run writes to the log itself is fixed by how its visits end and by its result. `Batch.Writes`
tells it apart from what the broker, the stores and the work on an instrument write: a run goes from
session to session by calls, which may write whatever they want, and by events of its own. If the calls
do not speak in the name of a batch, these events can be read off the log.
-/

namespace DailyBars

variable {σ : Type}

/-! ### What is told of what -/

/-- What is told when a run starts. -/
def startNotice (job : Job) (start last : Date) : LogEvent :=
  ⟨.info, .batch, "Batch started",
    [("job", .text job.name), ("start", .text start.iso), ("end", .text last.iso)]⟩

/-- What is told of a visit to an instrument, by its end. -/
def VisitEnd.notices (job : Job) (i : Instrument) : VisitEnd → List LogEvent
  | skipped => [⟨.warn, .batch, "Asset type is missing, skipping instrument",
      [("job", .text job.name), ("id", .int i.id), ("stock_code", .text i.stockCode)]⟩]
  | saved _ => []
  | failed (.broker e) => [⟨.warn, .batch, "Broker request failed, will retry on next run",
      [("job", .text job.name), ("stock_code", .text i.stockCode), ("error", .text e.message)]⟩]
  | failed (.storage e) => [⟨.error, .batch, "Storage failure",
      [("job", .text job.name), ("stock_code", .text i.stockCode), ("alert", .bool true),
        ("error", .text e.message)]⟩]
  | failed e => [⟨.error, .batch, "Unexpected failure",
      [("job", .text job.name), ("stock_code", .text i.stockCode), ("error", .text e.message)]⟩]

/-- The numbers of an outcome. -/
def Outcome.summaryNotice (o : Outcome) (job : Job) : LogEvent :=
  ⟨.info, .outcome, o.summary job.name,
    [("job", .text job.name), ("total", .nat o.total), ("success", .nat o.success),
      ("recoverable", .nat o.recoverable), ("critical", .nat o.critical),
      ("unexpected", .nat o.unexpected), ("skipped", .nat o.skipped),
      ("saved_rows", .nat o.savedRows), ("elapsed", .text (o.elapsedSeconds.fixed 1 ++ "s"))]⟩

/-- What is told if a store failed in a run. -/
def Outcome.storeAlert (o : Outcome) (job : Job) : LogEvent :=
  ⟨.error, .outcome,
    "ALERT: " ++ Text.decimalText o.critical ++ " critical database failures detected!",
    [("job", .text job.name), ("alert", .bool true), ("critical", .nat o.critical)]⟩

/-- What is told of the answer to a question for a page, or of all of them. -/
def pageNotices {α : Type} (job : Job) : Except CollectError α → List LogEvent
  | .ok _ => []
  | .error e => [Batch.pageAlert job e]

/-- What is told when a run is over, by its result. -/
def closingNotices (job : Job) : Except CollectError Outcome → List LogEvent
  | .ok o => o.summaryNotice job :: if 0 < o.critical then [o.storeAlert job] else []
  | .error e => [Batch.pageAlert job e]

theorem exec_report (o : Outcome) (job : Job) (s : Session σ) :
    Act.exec (o.report job.name) s = ((), { s with log := s.log ++ closingNotices job (.ok o) }) := by
  unfold Outcome.report
  rw [Act.exec_bind, Act.exec_emit]
  dsimp only [closingNotices]
  split
  · rw [Act.exec_emit, List.append_assoc]
    rfl
  · rfl

/-! ### Who speaks -/

/-- The log grows, but by no event of a batch. -/
def Session.GrowsApart (s s' : Session σ) : Prop :=
  ∃ events, (∀ e ∈ events, ¬ LogEvent.IsOfBatch e) ∧ s'.log = s.log ++ events

namespace Session.GrowsApart

variable {s s' t : Session σ}

theorem refl (s : Session σ) : s.GrowsApart s := ⟨[], by simp, by simp⟩

theorem trans (h : s.GrowsApart t) (h' : t.GrowsApart s') : s.GrowsApart s' := by
  obtain ⟨events, hevents, hlog⟩ := h
  obtain ⟨more, hmore, hlog'⟩ := h'
  refine ⟨events ++ more, ?_, by rw [hlog', hlog, List.append_assoc]⟩
  intro e he
  exact (List.mem_append.mp he).elim (hevents e) (hmore e)

theorem filter_eq (h : s.GrowsApart s') : ∃ events, s'.log = s.log ++ events ∧
    events.filter (fun e => decide e.IsOfBatch) = [] := by
  obtain ⟨events, hevents, hlog⟩ := h
  exact ⟨events, hlog, List.filter_eq_nil_iff.mpr fun e he => by simpa using hevents e he⟩

end Session.GrowsApart

/-- The code of the instrument that an event is about. -/
def LogEvent.stockCode? (e : LogEvent) : Option LogValue := e.fields.lookup "stock_code"

namespace Batch

variable {b : Batch σ} {job : Job} {start last : Date} {after : Option Int} {o o' : Outcome}
  {s s' s₁ : Session σ} {page : List Instrument} {turns : List (Turn σ)} {fuel : Nat}
  {r : Except CollectError Outcome} {v : Visit σ} {own more : List LogEvent}

/-- What is told of a visit. -/
def notices (b : Batch σ) (v : Visit σ) : List LogEvent := (b.endOf v).notices v.job v.instrument

/-! ### A run's own events -/

/-- The batch goes from session to session by calls and by writing some events of its own. -/
inductive Writes (b : Batch σ) : Session σ → List LogEvent → Session σ → Prop
  | tell (s : Session σ) {e : LogEvent} : e.IsOfBatch →
      Writes b s [e] { s with log := s.log ++ [e] }
  | load (s : Session σ) (completed : Bool) (after : Option Int) (limit : Nat) :
      Writes b s [] ((b.watchlist.findPage completed after limit).exec s).2
  | work (s : Session σ) (job : Job) (i : Instrument) (start last : Date) :
      Writes b s [] ((b.process job i start last).exec s).2
  | nil (s : Session σ) : Writes b s [] s
  | append {s s₁ s' : Session σ} {own more : List LogEvent} :
      Writes b s own s₁ → Writes b s₁ more s' → Writes b s (own ++ more) s'

theorem writes_all (s : Session σ) (h : ∀ e ∈ own, e.IsOfBatch) :
    b.Writes s own { s with log := s.log ++ own } := by
  induction own generalizing s with
  | nil =>
      rw [List.append_nil]
      exact .nil s
  | cons e rest ih =>
      have hrest := ih { s with log := s.log ++ [e] } fun e he => h e (List.mem_cons_of_mem _ he)
      rw [List.append_assoc] at hrest
      exact .append (.tell s (h e List.mem_cons_self)) hrest

theorem isOfBatch_notices : ∀ e ∈ b.notices v, e.IsOfBatch := by
  unfold notices
  cases b.endOf v with
  | skipped => simp [VisitEnd.notices, LogEvent.IsOfBatch]
  | saved n => simp [VisitEnd.notices]
  | failed e => cases e <;> simp [VisitEnd.notices, LogEvent.IsOfBatch]

theorem isOfBatch_closingNotices (job : Job) (r : Except CollectError Outcome) :
    ∀ e ∈ closingNotices job r, e.IsOfBatch := by
  cases r with
  | error e => simp [closingNotices, pageAlert, LogEvent.IsOfBatch]
  | ok o =>
      dsimp only [closingNotices]
      split <;>
        simp [LogEvent.IsOfBatch, Outcome.summaryNotice, Outcome.storeAlert]

theorem exec_logFailure (job : Job) (i : Instrument) (e : CollectError) (s : Session σ) :
    Act.exec (logFailure job i e) s =
      ((), { s with log := s.log ++ (VisitEnd.failed e).notices job i }) := by
  cases e <;> rfl

/-- After its work a visit writes what is told of its end. -/
theorem writes_visit (h : b.Makes v) : b.Writes v.before (b.notices v) v.after := by
  by_cases hnone : v.instrument.assetType = none
  · -- An instrument that nobody has classified is not worked on, but it is told of.
    have hafter : v.after = { v.before with log := v.before.log ++ b.notices v } := by
      rw [notices, endOf_eq_skipped.mpr hnone]
      unfold Makes visit at h
      rw [if_pos (by rw [hnone]; rfl)] at h
      exact (congrArg Prod.snd h).symm
    rw [hafter]
    exact writes_all v.before isOfBatch_notices
  · rcases hrun : (b.process v.job v.instrument v.start v.last).exec v.before with ⟨r, t⟩
    have hafter : v.after = { t with log := t.log ++ b.notices v } := by
      rw [notices, endOf_eq_ofResult hnone hrun]
      unfold Makes visit at h
      rw [if_neg (by simpa using hnone), Act.exec_bind, Act.exec_run, hrun] at h
      cases r with
      | ok saved =>
          rw [VisitEnd.ofResult, VisitEnd.notices, List.append_nil]
          exact (congrArg Prod.snd h).symm
      | error e =>
          dsimp only at h
          rw [Act.exec_bind, exec_logFailure] at h
          exact (congrArg Prod.snd h).symm
    have hwork := Writes.work (b := b) v.before v.job v.instrument v.start v.last
    rw [hrun] at hwork
    rw [hafter]
    exact hwork.append (writes_all t isOfBatch_notices)

theorem writes_visitAll (b : Batch σ) (job : Job) (start last : Date) (o : Outcome)
    (page : List Instrument) (s : Session σ) :
    b.Writes s ((b.visitsTo job start last o s page).flatMap b.notices)
      (Act.exec (b.visitAll job start last o page) s).2 := by
  induction page generalizing o s with
  | nil => exact .nil s
  | cons i rest ih =>
      let r := Act.exec (b.visit job start last o i) s
      have hmakes : b.Makes ⟨job, start, last, i, s, o, r.2, r.1⟩ := rfl
      exact (writes_visit hmakes).append (ih r.1 r.2)

theorem writes_loadPage {answer : Except CollectError (List Instrument)}
    (h : (b.loadPage job after).exec s = (answer, s')) :
    b.Writes s (pageNotices job answer) s' := by
  have hload := Writes.load (b := b) s job.visitsCompleted after b.config.instrumentPageSize
  cases answer with
  | ok page =>
      rw [exec_loadPage_ok.mp h] at hload
      exact hload
  | error e =>
      obtain ⟨cause, t, -, hfind, rfl⟩ := exec_loadPage_error h
      rw [hfind] at hload
      exact hload.append (.tell t (.inl rfl))

/-- The turns of a run write what is told of their visits, and an alert if a page cannot be loaded;
that is the last thing they do. -/
theorem Paging.writes (h : b.Paging job start last fuel after o s turns r s') :
    b.Writes s ((Turn.allVisits turns).flatMap b.notices ++ pageNotices job r) s' := by
  induction h with
  | limit => exact .nil _
  | failed hload => exact writes_loadPage hload
  | @last _ after o o' s s₁ s' page hload _ hvisits =>
      have hpage := writes_visitAll b job start last o page s₁
      rw [hvisits] at hpage
      dsimp only at hpage
      rw [Turn.allVisits_cons, Turn.allVisits_nil, List.append_nil, pageNotices, List.append_nil]
      exact (writes_loadPage hload).append hpage
  | @next _ after o o₁ s s₁ s₂ s' page i turns r hload _ _ hvisits _ ih =>
      have hpage := writes_visitAll b job start last o page s₁
      rw [hvisits] at hpage
      dsimp only at hpage
      rw [Turn.allVisits_cons, List.flatMap_append, List.append_assoc]
      exact (writes_loadPage hload).append (hpage.append ih)

/-- If a page cannot be loaded, nothing is written after the alert. -/
theorem Paging.exists_log {e : CollectError}
    (h : b.Paging job start last fuel after o s turns (.error e) s') :
    ∃ log, s'.log = log ++ [pageAlert job e] := by
  generalize hr : (.error e : Except CollectError Outcome) = r at h
  -- The turn in which a page is missing is the last one, and its alert the last thing it writes.
  induction h with
  | limit => cases hr
  | failed hload =>
      cases hr
      obtain ⟨cause, t, -, -, rfl⟩ := exec_loadPage_error hload
      exact ⟨t.log, rfl⟩
  | last => cases hr
  | next _ _ _ _ _ ih => exact ih hr

/-- The session in which the turns of a run begin. -/
def announced (job : Job) (start last : Date) (s : Session σ) : Session σ :=
  { s with log := s.log ++ [startNotice job start last] }

theorem exec_run_ok {t : Session σ}
    (h : (b.visitPages job start last none {} pageLimit).exec (announced job start last s) =
      (.ok o, t)) :
    let o' := { o with elapsed := t.clock.uptime - s.clock.uptime }
    (b.run job start last).exec s =
      (.ok o', { t with log := t.log ++ closingNotices job (.ok o') }) := by
  intro o'
  unfold run
  rw [Attempt.exec_bind_ok (Attempt.exec_ofAct ..), Attempt.exec_bind_ok (Attempt.exec_ofAct ..)]
  change Attempt.exec (_ >>= _) (announced job start last s) = _
  rw [Attempt.exec_bind_ok h, Attempt.exec_bind_ok (Attempt.exec_ofAct ..)]
  dsimp only [Act.exec_uptime]
  rw [Attempt.exec_bind_ok (Attempt.exec_ofAct ..), exec_report]
  rfl

theorem exec_run_error {t : Session σ} {e : CollectError}
    (h : (b.visitPages job start last none {} pageLimit).exec (announced job start last s) =
      (.error e, t)) : (b.run job start last).exec s = (.error e, t) := by
  unfold run
  rw [Attempt.exec_bind_ok (Attempt.exec_ofAct ..), Attempt.exec_bind_ok (Attempt.exec_ofAct ..)]
  exact Attempt.exec_bind_error h

/-- A run announces itself, goes through its turns, and reports the outcome unless a page could not be
loaded. -/
theorem exists_run_writes (b : Batch σ) (job : Job) (start last : Date) (s : Session σ) :
    ∃ turns r t,
      b.Paging job start last pageLimit none {} (announced job start last s) turns r t ∧
      ((b.run job start last).exec s).1 =
        r.map (fun o => { o with elapsed := t.clock.uptime - s.clock.uptime }) ∧
      b.Writes s (startNotice job start last :: (Turn.allVisits turns).flatMap b.notices ++
        closingNotices job ((b.run job start last).exec s).1) ((b.run job start last).exec s).2 ∧
      ∃ log, ((b.run job start last).exec s).2.log =
        log ++ closingNotices job ((b.run job start last).exec s).1 := by
  obtain ⟨turns, hpaging⟩ :=
    exists_paging b job start last pageLimit none {} (announced job start last s)
  have hstart : b.Writes s [startNotice job start last] (announced job start last s) :=
    .tell s (.inl rfl)
  rcases hpages : (b.visitPages job start last none {} pageLimit).exec (announced job start last s)
    with ⟨r, t⟩
  rw [hpages] at hpaging
  refine ⟨turns, r, t, hpaging, ?_⟩
  have hturns := hstart.append hpaging.writes
  cases r with
  | error e =>
      rw [exec_run_error hpages]
      exact ⟨rfl, hturns, hpaging.exists_log⟩
  | ok o =>
      rw [exec_run_ok hpages]
      refine ⟨rfl, ?_, t.log, rfl⟩
      rw [pageNotices, List.append_nil] at hturns
      exact hturns.append (writes_all t (isOfBatch_closingNotices job _))

/-! ### Reading the log -/

/-- If the calls write nothing in the name of a batch, what a batch writes itself is what the log gets
in its name. -/
theorem Writes.log (h : b.Writes s own s') (apart : b.Takes Session.GrowsApart) :
    ∃ events, s'.log = s.log ++ events ∧
      events.filter (fun e => decide e.IsOfBatch) = own := by
  induction h with
  | @tell s e he => exact ⟨[e], rfl, by simp [he]⟩
  | load s completed after limit => exact (apart.findPage completed after limit s).filter_eq
  | work s job i start last => exact (apart.process job i start last s).filter_eq
  | nil s => exact ⟨[], by simp, rfl⟩
  | append _ _ ih ih' =>
      obtain ⟨events, hlog, hown⟩ := ih
      obtain ⟨more, hlog', hmore⟩ := ih'
      exact ⟨events ++ more, by rw [hlog', hlog, List.append_assoc], by
        rw [List.filter_append, hown, hmore]⟩

/-- If a kind of event is told once of a visit that ended in a certain way, and never of another one,
the visits that ended so can be read off the events of this kind. -/
theorem filter_notices {kind : LogEvent → Bool} {way : VisitEnd → Bool}
    (h : ∀ job i (e : VisitEnd), ((e.notices job i).filter kind).map (·.stockCode?) =
      if way e then [some (.text i.stockCode)] else []) (visits : List (Visit σ)) :
    ((visits.flatMap b.notices).filter kind).map (·.stockCode?) =
      (visits.filter fun v => way (b.endOf v)).map fun v =>
        some (.text v.instrument.stockCode) := by
  induction visits with
  | nil => rfl
  | cons v rest ih =>
      rw [List.flatMap_cons, List.filter_append, List.map_append, ih, notices, h, List.filter_cons]
      split <;> rfl

/-- The run ends with an alert: a store failed in a visit, or a page could not be loaded. -/
def endsInAlert : Except CollectError Outcome → Bool
  | .ok o => decide (0 < o.critical)
  | .error _ => true

/-- What is told of an end is an alert, a warning or another error, or it is nothing. -/
theorem filter_endNotices (job : Job) (i : Instrument) (e : VisitEnd) :
    ((e.notices job i).filter fun event => event.level == .error && event.isAlert).map
        (·.stockCode?) = (if e.isOfStore then [some (.text i.stockCode)] else []) ∧
      ((e.notices job i).filter fun event => event.level == .warn).map (·.stockCode?) =
        (if e.isOfBroker || e.isSkipped then [some (.text i.stockCode)] else []) ∧
      ((e.notices job i).filter fun event => event.level == .error && !event.isAlert).map
        (·.stockCode?) = (if e.isOfElse then [some (.text i.stockCode)] else []) ∧
      (e.notices job i).filter (fun event => event.level != .error && event.level != .warn) = [] := by
  cases e with
  | skipped => exact ⟨rfl, rfl, rfl, rfl⟩
  | saved n => exact ⟨rfl, rfl, rfl, rfl⟩
  | failed e => cases e <;> exact ⟨rfl, rfl, rfl, rfl⟩

/-- At the end there is an alert if anything is to be looked at, no warning, no other error, and the
summary of the outcome. -/
theorem filter_closingNotices (job : Job) (r : Except CollectError Outcome) :
    ((closingNotices job r).filter fun e => e.level == .error && e.isAlert).map (·.stockCode?) =
        (if endsInAlert r then [none] else []) ∧
      (closingNotices job r).filter (fun e => e.level == .warn) = [] ∧
      (closingNotices job r).filter (fun e => e.level == .error && !e.isAlert) = [] ∧
      (closingNotices job r).filter (fun e => e.level != .error && e.level != .warn) =
        match r with
        | .ok o => [o.summaryNotice job]
        | .error _ => [] := by
  cases r with
  | error e => exact ⟨rfl, rfl, rfl, rfl⟩
  | ok o =>
      by_cases hcritical : 0 < o.critical
      · rw [closingNotices, endsInAlert, if_pos hcritical, decide_eq_true hcritical]
        exact ⟨rfl, rfl, rfl, rfl⟩
      · rw [closingNotices, endsInAlert, if_neg hcritical, decide_eq_false hcritical]
        exact ⟨rfl, rfl, rfl, rfl⟩

/-- What a run writes itself. -/
structure TellsRun (b : Batch σ) (job : Job) (start last : Date) (turns : List (Turn σ))
    (result : Except CollectError Outcome) (own : List LogEvent) : Prop where
  /-- It announces itself, tells of its visits in their order, and of its result. -/
  whole : own = startNotice job start last :: (Turn.allVisits turns).flatMap b.notices ++
    closingNotices job result
  /-- There is an alert for each visit that ended in trouble with a store, and one at the end if there
  was any such visit or if a page could not be loaded. -/
  alerts : (own.filter fun e => e.level == .error && e.isAlert).map (·.stockCode?) =
    ((Turn.allVisits turns).filter fun v => (b.endOf v).isOfStore).map
      (fun v => some (.text v.instrument.stockCode)) ++ if endsInAlert result then [none] else []
  /-- There is a warning for each visit that was skipped or failed because of the broker. -/
  warnings : (own.filter fun e => e.level == .warn).map (·.stockCode?) =
    ((Turn.allVisits turns).filter fun v => (b.endOf v).isOfBroker || (b.endOf v).isSkipped).map
      fun v => some (.text v.instrument.stockCode)
  /-- There is an error without an alert for each visit that failed for any other reason. -/
  errors : (own.filter fun e => e.level == .error && !e.isAlert).map (·.stockCode?) =
    ((Turn.allVisits turns).filter fun v => (b.endOf v).isOfElse).map
      fun v => some (.text v.instrument.stockCode)
  /-- Nothing else is told but the start and, if there is an outcome, its summary. -/
  rest : own.filter (fun e => e.level != .error && e.level != .warn) =
    startNotice job start last :: match result with
      | .ok o => [o.summaryNotice job]
      | .error _ => []
  /-- An outcome is the account of the visits. -/
  counted : ∀ o, result = .ok o → o.Accounts ((Turn.allVisits turns).map b.endOf)
  /-- The run fails exactly if a question for a page does. -/
  failed : ∀ e, result = .error e ↔ ∃ t ∈ turns, t.answer = .error e

theorem tellsRun {t : Session σ} {result : Except CollectError Outcome} {elapsed : Nat}
    (h : b.Paging job start last pageLimit none {} s turns r t)
    (hresult : result = r.map fun o => { o with elapsed }) :
    b.TellsRun job start last turns result
      (startNotice job start last :: (Turn.allVisits turns).flatMap b.notices ++
        closingNotices job result) := by
  obtain ⟨halerts, hwarnings, herrors, hrest⟩ := filter_closingNotices job result
  refine ⟨rfl, ?_, ?_, ?_, ?_, fun o ho => h.accounts (hresult.symm.trans ho), fun e => ?_⟩
  · rw [List.filter_append, List.map_append, halerts,
      List.filter_cons_of_neg (by simp [startNotice]),
      filter_notices fun job i e => (filter_endNotices job i e).1]
  · rw [List.filter_append, hwarnings, List.append_nil,
      List.filter_cons_of_neg (by simp [startNotice]),
      filter_notices fun job i e => (filter_endNotices job i e).2.1]
  · rw [List.filter_append, herrors, List.append_nil,
      List.filter_cons_of_neg (by simp [startNotice]),
      filter_notices fun job i e => (filter_endNotices job i e).2.2.1]
  · have hvisits : ((Turn.allVisits turns).flatMap fun v => (b.notices v).filter fun e =>
        e.level != .error && e.level != .warn) = [] :=
      List.flatMap_eq_nil_iff.mpr fun v _ =>
        (filter_endNotices v.job v.instrument (b.endOf v)).2.2.2
    rw [List.filter_append, hrest, List.filter_cons_of_pos (by simp [startNotice]),
      List.filter_flatMap, hvisits]
    rfl
  · rw [← h.error_iff, hresult]
    cases r <;> simp [Except.map]

/-- **Alerts are raised exactly for trouble with the stores.** Whatever the broker and the stores do,
what a run writes itself is as `TellsRun` says of its turns and its result, and what it writes at the
end is the end of the log. If the calls write nothing in the name of a batch, it is what the log gets in
this name. -/
theorem run_raises_alerts (b : Batch σ) (job : Job) (start last : Date) (s : Session σ) :
    ∃ turns r t own,
      b.Paging job start last pageLimit none {} (announced job start last s) turns r t ∧
      b.TellsRun job start last turns ((b.run job start last).exec s).1 own ∧
      b.Writes s own ((b.run job start last).exec s).2 ∧
      (∃ log, ((b.run job start last).exec s).2.log =
        log ++ closingNotices job ((b.run job start last).exec s).1) ∧
      (b.Takes Session.GrowsApart → ∃ events,
        ((b.run job start last).exec s).2.log = s.log ++ events ∧
          events.filter (fun e => decide e.IsOfBatch) = own) := by
  obtain ⟨turns, r, t, hpaging, hresult, hwrites, hlog⟩ := exists_run_writes b job start last s
  exact ⟨turns, r, t, _, hpaging, tellsRun hpaging hresult, hwrites, hlog, hwrites.log⟩

/-- The calls of a rehearsal batch write nothing in the name of a batch. -/
theorem takes_growsApart_rehearsal (strategies : Strategies) (config : BatchConfig) :
    (RehearsalWorld.batch strategies config).Takes Session.GrowsApart :=
  RehearsalWorld.takes_batch strategies config .refl .trans (fun _ events h => ⟨events, h, rfl⟩)
    (fun _ _ _ _ _ => ⟨[], by simp, by simp⟩) fun _ _ _ => ⟨[], by simp, by simp⟩

/-- A run over an instrument that nobody has classified and one whose transaction cannot be opened: what
it writes itself can be read off the log. -/
theorem run_raises_alerts_of_refused_transaction :
    let instrument (id : Int) (code : String) (type : Option AssetType) : Instrument :=
      ⟨id, code, none, none, type, false⟩
    let instruments := [instrument 1 "000000" none, instrument 2 "005930" (some .domesticStock)]
    let refuses (_ : Nat) (c : StoreCall) : Option StorageError :=
      if c = .begin 0 then some (.connection "refused") else none
    let world : RehearsalWorld :=
      { store := { RehearsalStore.ofLedger (.ofInstruments instruments) with plan := refuses }
        market := ⟨2, .newestFirst, false, [], [], [], []⟩
        locks := .empty }
    let batch := RehearsalWorld.batch (.full 2) ⟨3, 2, default⟩
    let s : Session RehearsalWorld := ⟨world, ⟨default, 0⟩, []⟩
    ∃ turns, batch.TellsRun .backfill default default turns
      ((batch.run .backfill default default).exec s).1
      (((batch.run .backfill default default).exec s).2.log.filter
        fun e => decide e.IsOfBatch) := by
  intro instrument instruments refuses world batch s
  obtain ⟨turns, _, _, own, -, htells, -, -, hlog⟩ :=
    run_raises_alerts batch .backfill default default s
  obtain ⟨events, hevents, rfl⟩ := hlog (takes_growsApart_rehearsal (.full 2) ⟨3, 2, default⟩)
  refine ⟨turns, ?_⟩
  rw [hevents]
  exact htells

end Batch

end DailyBars
