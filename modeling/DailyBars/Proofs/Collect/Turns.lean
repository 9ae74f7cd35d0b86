import DailyBars.Proofs.Collect.Runs

/-!
# The turns of a run

A run goes through the watchlist in turns. Each turn asks for the instruments after the last id seen
and visits the ones on the page, one after the other; the run is over after a page that is empty or
not full, or when a page cannot be loaded. `Batch.Paging` is this loop as a relation that keeps what
was asked, what was answered and which visits were made, so that later proofs go by its four cases
and never open the loop itself.
-/

namespace DailyBars

variable {σ : Type}

/-- A turn of a run: the question for a page, its answer, and the visits to the instruments on the
page. -/
structure Turn (σ : Type) where
  /-- The id that the page starts after. -/
  after : Option Int
  asked : Session σ
  answer : Except CollectError (List Instrument)
  answered : Session σ
  visits : List (Visit σ)

/-- All the visits of some turns, in their order. -/
def Turn.allVisits (turns : List (Turn σ)) : List (Visit σ) := turns.flatMap (·.visits)

@[simp] theorem Turn.allVisits_nil : Turn.allVisits ([] : List (Turn σ)) = [] := rfl

@[simp] theorem Turn.allVisits_cons (t : Turn σ) (turns : List (Turn σ)) :
    Turn.allVisits (t :: turns) = t.visits ++ Turn.allVisits turns := rfl

namespace Batch

variable {b : Batch σ} {job : Job} {start last : Date} {after : Option Int} {o o' : Outcome}
  {s s' : Session σ} {page : List Instrument} {turns : List (Turn σ)} {fuel : Nat}
  {r : Except CollectError Outcome} {v : Visit σ} {e : CollectError}

/-! ### The visits to a page -/

/-- The visits to some instruments, one after the other. -/
def visitsTo (b : Batch σ) (job : Job) (start last : Date) (o : Outcome) (s : Session σ) :
    List Instrument → List (Visit σ)
  | [] => []
  | i :: is =>
    let r := Act.exec (b.visit job start last o i) s
    ⟨job, start, last, i, s, o, r.2, r.1⟩ :: b.visitsTo job start last r.1 r.2 is

@[simp] theorem map_instrument_visitsTo (b : Batch σ) (job : Job) (start last : Date) (o : Outcome)
    (s : Session σ) (page : List Instrument) :
    (b.visitsTo job start last o s page).map (·.instrument) = page := by
  induction page generalizing o s with
  | nil => rfl
  | cons i rest ih => simp only [visitsTo, List.map_cons, ih]

theorem makes_of_mem_visitsTo (h : v ∈ b.visitsTo job start last o s page) : b.Makes v := by
  induction page generalizing o s with
  | nil => cases h
  | cons i rest ih =>
      rcases List.mem_cons.mp h with rfl | h
      · rfl
      · exact ih h

theorem job_of_mem_visitsTo (h : v ∈ b.visitsTo job start last o s page) :
    v.job = job ∧ v.start = start ∧ v.last = last := by
  induction page generalizing o s with
  | nil => cases h
  | cons i rest ih =>
      rcases List.mem_cons.mp h with rfl | h
      · exact ⟨rfl, rfl, rfl⟩
      · exact ih h

theorem history_visitsTo (ledger : σ → Ledger) (b : Batch σ) (job : Job) (start last : Date)
    (o : Outcome) (page : List Instrument) (s : Session σ) :
    b.History ledger s (b.visitsTo job start last o s page)
      (Act.exec (b.visitAll job start last o page) s).2 := by
  induction page generalizing o s with
  | nil => exact .quiet rfl
  | cons i rest ih => exact .visit rfl rfl (ih _ _)

/-! ### The question for a page -/

theorem exec_loadPage_ok : (b.loadPage job after).exec s = (.ok page, s') ↔
    (b.watchlist.findPage job.visitsCompleted after b.config.instrumentPageSize).exec s =
      (.ok page, s') := by
  unfold loadPage
  rw [Attempt.exec_orElseAs_ok, Attempt.exec_onFailure_eq_ok]

/-- What is told of a page that cannot be loaded. -/
def pageAlert (job : Job) (e : CollectError) : LogEvent :=
  ⟨.error, .batch, "Failed to load instrument page",
    [("job", .text job.name), ("alert", .bool true), ("error", .text e.message)]⟩

/-- A page that cannot be loaded is logged, and nothing else is done about it. -/
theorem exec_loadPage_error (h : (b.loadPage job after).exec s = (.error e, s')) :
    ∃ cause t, e = .storage cause ∧
      (b.watchlist.findPage job.visitsCompleted after b.config.instrumentPageSize).exec s =
        (.error cause, t) ∧ s' = { t with log := t.log ++ [pageAlert job e] } := by
  unfold loadPage at h
  rw [Attempt.exec_orElseAs, Attempt.exec_onFailure] at h
  rcases hr : (b.watchlist.findPage job.visitsCompleted after
    b.config.instrumentPageSize).exec s with ⟨r, t⟩
  rw [hr] at h
  cases r with
  | ok page => cases h
  | error cause =>
      cases h
      exact ⟨cause, t, rfl, rfl, rfl⟩

/-! ### The loop -/

/-- The loop of a run from a cursor, an outcome and a session, with `fuel` pages still allowed: its
turns, its result, and the session after it. -/
inductive Paging (b : Batch σ) (job : Job) (start last : Date) :
    (fuel : Nat) → (after : Option Int) → Outcome → Session σ → List (Turn σ) →
      Except CollectError Outcome → Session σ → Prop where
  /-- No more pages are allowed. -/
  | limit {after : Option Int} {o : Outcome} {s : Session σ} :
      Paging b job start last 0 after o s [] (.ok o) s
  /-- The page cannot be loaded. -/
  | failed {fuel : Nat} {after : Option Int} {o : Outcome} {s s' : Session σ} {e : CollectError} :
      (b.loadPage job after).exec s = (.error e, s') →
      Paging b job start last (fuel + 1) after o s [⟨after, s, .error e, s', []⟩] (.error e) s'
  /-- The page is empty or not full. -/
  | last {fuel : Nat} {after : Option Int} {o o' : Outcome} {s s₁ s' : Session σ}
      {page : List Instrument} :
      (b.loadPage job after).exec s = (.ok page, s₁) →
      page = [] ∨ page.length < b.config.instrumentPageSize →
      Act.exec (b.visitAll job start last o page) s₁ = (o', s') →
      Paging b job start last (fuel + 1) after o s
        [⟨after, s, .ok page, s₁, b.visitsTo job start last o s₁ page⟩] (.ok o') s'
  /-- The page is full, so there may be more after its last instrument. -/
  | next {fuel : Nat} {after : Option Int} {o o₁ : Outcome} {s s₁ s₂ s' : Session σ}
      {page : List Instrument} {i : Instrument} {turns : List (Turn σ)}
      {r : Except CollectError Outcome} :
      (b.loadPage job after).exec s = (.ok page, s₁) →
      page.getLast? = some i → b.config.instrumentPageSize ≤ page.length →
      Act.exec (b.visitAll job start last o page) s₁ = (o₁, s₂) →
      Paging b job start last fuel (some i.id) o₁ s₂ turns r s' →
      Paging b job start last (fuel + 1) after o s
        (⟨after, s, .ok page, s₁, b.visitsTo job start last o s₁ page⟩ :: turns) r s'

/-- The loop goes by turns. -/
theorem exists_paging (b : Batch σ) (job : Job) (start last : Date) (fuel : Nat)
    (after : Option Int) (o : Outcome) (s : Session σ) :
    ∃ turns, b.Paging job start last fuel after o s turns
      ((b.visitPages job start last after o fuel).exec s).1
      ((b.visitPages job start last after o fuel).exec s).2 := by
  induction fuel generalizing after o s with
  | zero => exact ⟨[], .limit⟩
  | succ fuel ih =>
      rw [visitPages, Attempt.exec_bind]
      rcases hload : (b.loadPage job after).exec s with ⟨r, s₁⟩
      cases r with
      | error e => exact ⟨_, .failed hload⟩
      | ok page =>
          dsimp only
          cases hlast : page.getLast? with
          | none =>
              obtain rfl : page = [] := List.getLast?_eq_none_iff.mp hlast
              exact ⟨_, .last hload (.inl rfl) rfl⟩
          | some i =>
              dsimp only
              rw [Attempt.exec_bind, Attempt.exec_ofAct]
              dsimp only
              split
              · rename_i hshort
                exact ⟨_, .last hload (.inr hshort) rfl⟩
              · rename_i hfull
                obtain ⟨turns, hrest⟩ := ih (some i.id) _ _
                exact ⟨_, .next hload hlast (Nat.not_lt.mp hfull) rfl hrest⟩

/-- The turns of a run of a job over some days. What the run does beside its turns is to log them and
to take the time. -/
def Traces (b : Batch σ) (job : Job) (start last : Date) (s : Session σ) (turns : List (Turn σ)) :
    Prop :=
  ∃ s₀ r s₁, s₀.world = s.world ∧ b.Paging job start last pageLimit none {} s₀ turns r s₁ ∧
    (∃ elapsed, ((b.run job start last).exec s).1 = r.map fun o => { o with elapsed }) ∧
    ((b.run job start last).exec s).2.world = s₁.world

/-- Every run goes by turns. -/
theorem exists_traces (b : Batch σ) (job : Job) (start last : Date) (s : Session σ) :
    ∃ turns, b.Traces job start last s turns := by
  unfold Traces run
  rw [Attempt.exec_bind, Attempt.exec_ofAct]
  dsimp only
  rw [Attempt.exec_bind, Attempt.exec_ofAct]
  dsimp only
  generalize hs₀ : (Act.exec (Act.emit .info .batch _ _) _).2 = s₀
  rw [Attempt.exec_bind]
  obtain ⟨turns, hpaging⟩ := exists_paging b job start last pageLimit none {} s₀
  refine ⟨turns, s₀, _, _, hs₀ ▸ rfl, hpaging, ?_⟩
  rcases (b.visitPages job start last none {} pageLimit).exec s₀ with ⟨r, s₁⟩
  cases r with
  | error e => exact ⟨⟨0, rfl⟩, rfl⟩
  | ok o =>
      dsimp only
      rw [Attempt.exec_bind, Attempt.exec_ofAct]
      dsimp only
      rw [Attempt.exec_bind, Attempt.exec_ofAct]
      exact ⟨⟨_, rfl⟩, world_report _ _ _⟩

namespace Paging

/-- Every turn asks for its page. -/
theorem asks (h : b.Paging job start last fuel after o s turns r s') {t : Turn σ} (ht : t ∈ turns) :
    (b.loadPage job t.after).exec t.asked = (t.answer, t.answered) := by
  induction h with
  | limit => cases ht
  | failed hload =>
      obtain rfl := List.mem_singleton.mp ht
      exact hload
  | last hload =>
      obtain rfl := List.mem_singleton.mp ht
      exact hload
  | next hload _ _ _ _ ih =>
      rcases List.mem_cons.mp ht with rfl | ht
      · exact hload
      · exact ih ht

/-- Every visit of a run is one that the batch makes, of the job and the days of the run. -/
theorem makes (h : b.Paging job start last fuel after o s turns r s')
    (hv : v ∈ Turn.allVisits turns) :
    b.Makes v ∧ v.job = job ∧ v.start = start ∧ v.last = last := by
  induction h with
  | limit => cases hv
  | failed => cases hv
  | last =>
      rw [Turn.allVisits_cons, Turn.allVisits_nil, List.append_nil] at hv
      exact ⟨makes_of_mem_visitsTo hv, job_of_mem_visitsTo hv⟩
  | next _ _ _ _ _ ih =>
      rcases List.mem_append.mp hv with hv | hv
      · exact ⟨makes_of_mem_visitsTo hv, job_of_mem_visitsTo hv⟩
      · exact ih hv

/-- A page that was loaded is visited, instrument by instrument. -/
theorem visits_of_answer (h : b.Paging job start last fuel after o s turns r s') {t : Turn σ}
    (ht : t ∈ turns) (hpage : t.answer = .ok page) : t.visits.map (·.instrument) = page := by
  induction h with
  | limit => cases ht
  | failed =>
      obtain rfl := List.mem_singleton.mp ht
      cases hpage
  | last =>
      obtain rfl := List.mem_singleton.mp ht
      cases hpage
      exact map_instrument_visitsTo ..
  | next _ _ _ _ _ ih =>
      rcases List.mem_cons.mp ht with rfl | ht
      · cases hpage
        exact map_instrument_visitsTo ..
      · exact ih ht

/-- A run fails with an error exactly if a page could not be loaded for that reason. -/
theorem error_iff (h : b.Paging job start last fuel after o s turns r s') :
    r = .error e ↔ ∃ t ∈ turns, t.answer = .error e := by
  induction h with
  | limit => simp
  | failed => simp
  | last => simp
  | next _ _ _ _ _ ih => simpa using ih

/-- Between the visits of a run nothing committed changes. -/
theorem history {ledger : σ → Ledger} (laws : b.Transactional ledger)
    (h : b.Paging job start last fuel after o s turns r s') :
    b.History ledger s (Turn.allVisits turns) s' := by
  have load {after : Option Int} {s s' : Session σ} {r : Except CollectError (List Instrument)}
      (hload : (b.loadPage job after).exec s = (r, s')) : b.History ledger s [] s' := by
    have hsame := committed_loadPage laws job after s
    rw [hload] at hsame
    exact .quiet hsame
  induction h with
  | limit => exact .quiet rfl
  | failed hload => exact load hload
  | @last _ after o o' s s₁ s' page hload _ hvisits =>
      have hpage := history_visitsTo ledger b job start last o page s₁
      rw [hvisits] at hpage
      rw [Turn.allVisits_cons, Turn.allVisits_nil, List.append_nil]
      exact (load hload).append hpage
  | @next _ after o o₁ s s₁ s₂ s' page i turns r hload _ _ hvisits _ ih =>
      have hpage := history_visitsTo ledger b job start last o page s₁
      rw [hvisits] at hpage
      exact (load hload).append (hpage.append ih)

end Paging

end Batch

end DailyBars
