import DailyBars.Proofs.Collect.Ends

/-!
# How far a run can move the world

The world changes in a run by the calls of the broker and the stores and by nothing else; the log also
grows by what is remarked between the calls. So if there is a relation between sessions in which every
call and every remark takes the session on, whether the call succeeds or fails, and in which several
such steps are one, then a whole transaction takes the session on in it. In a relation between worlds a
whole visit does, and so does a whole run from its start to any of its visits. Invariants are relations
of this kind, and so is that flags are set and never taken back.
-/

namespace DailyBars

variable {σ ε α : Type} {Q : Session σ → Session σ → Prop} {R : σ → σ → Prop}

/-! ### Relations between sessions -/

/-- Whatever becomes of the attempt, it takes the session on in the relation. -/
def Attempt.Takes (Q : Session σ → Session σ → Prop) (x : Attempt σ ε α) : Prop :=
  ∀ s, Q s (x.exec s).2

theorem Attempt.Takes.of_exec {x : Attempt σ ε α} {s s' : Session σ} {r : Except ε α}
    (h : x.Takes Q) (hx : x.exec s = (r, s')) : Q s s' := by
  have htakes := h s
  rwa [hx] at htakes

/-- Every call of the batch takes the session on in the relation, and so does every remark. -/
structure Batch.Takes (b : Batch σ) (Q : Session σ → Session σ → Prop) : Prop where
  refl : ∀ s, Q s s
  trans : ∀ {s₁ s₂ s₃}, Q s₁ s₂ → Q s₂ s₃ → Q s₁ s₃
  remark : ∀ (s : Session σ) events, (∀ e ∈ events, ¬ LogEvent.IsOfBatch e) →
    Q s { s with log := s.log ++ events }
  findPage : ∀ completed after limit, (b.watchlist.findPage completed after limit).Takes Q
  prices : ∀ endpoint key first last, (b.prices endpoint key first last).Takes Q
  begin : b.store.begin.Takes Q
  existingDates : ∀ key first last, (b.store.existingDates key first last).Takes Q
  saveAll : ∀ key bars, (b.store.saveAll key bars).Takes Q
  markCompleted : ∀ id, (b.store.markCompleted id).Takes Q
  commit : b.store.commit.Takes Q
  rollback : ∀ s, Q s (b.store.rollback.exec s).2

theorem Attempt.inherited_takes (refl : ∀ s, Q s s)
    (trans : ∀ {s₁ s₂ s₃}, Q s₁ s₂ → Q s₂ s₃ → Q s₁ s₃)
    (remark : ∀ (s : Session σ) events, (∀ e ∈ events, ¬ LogEvent.IsOfBatch e) →
      Q s { s with log := s.log ++ events }) :
    Attempt.Inherited fun _ _ (x : Attempt σ _ _) => x.Takes Q where
  pure _ s := refl s
  quiet x hx s := by
    obtain ⟨events, hevents, hexec⟩ := hx s
    rw [exec_ofAct, hexec]
    exact remark s events hevents
  orElseAs _ hx := hx
  bind {_ _ _ x f} hx hf s := by
    rw [exec_bind]
    have hfirst := hx s
    rcases hr : x.exec s with ⟨r, t⟩
    rw [hr] at hfirst
    cases r with
    | error e => exact hfirst
    | ok a => exact trans hfirst (hf a t)

namespace Batch.Takes

variable {b : Batch σ}

theorem gather (h : b.Takes Q) (job : Job) (strategy : Strategy) (i : Instrument)
    (start last : Date) : (b.gather job strategy i start last).Takes Q :=
  gather_inherits (Attempt.inherited_takes h.refl h.trans h.remark)
    ⟨fun key _ endpoint first last => h.prices endpoint key first last,
      fun key _ first last => h.existingDates key first last, fun key _ bars => h.saveAll key bars⟩
    (fun s => h.refl s) job start last

theorem work (h : b.Takes Q) (job : Job) (strategy : Strategy) (i : Instrument)
    (start last : Date) : (b.work job strategy i start last).Takes Q := by
  have inherited := Attempt.inherited_takes h.refl h.trans h.remark
  rw [work_eq]
  cases job with
  | collection => exact h.gather .collection strategy i start last
  | backfill =>
      refine inherited.bind (h.gather .backfill strategy i start last) fun saved => ?_
      exact inherited.bind (h.markCompleted i.id) fun _ => inherited.pure saved

theorem process (h : b.Takes Q) (job : Job) (i : Instrument) (start last : Date) :
    (b.process job i start last).Takes Q := by
  intro s
  rcases hrun : (b.process job i start last).exec s with ⟨r, s'⟩
  -- A visit's transaction ends with its commit, with a rollback, or before it was opened.
  cases r with
  | ok saved =>
      obtain ⟨strategy, s₁, s₂, -, hopen, hwork, hcommit⟩ := exec_process_ok.mp hrun
      have hworked := (h.work job strategy i start last).of_exec hwork
      exact h.trans (h.begin.of_exec hopen) (h.trans hworked (h.commit.of_exec hcommit))
  | error e =>
      rcases exec_process_error hrun with ⟨-, -, -, rfl⟩ | ⟨cause, hfailed, -⟩ |
        ⟨strategy, s₁, t, -, hopen, rfl, hfails⟩
      · exact h.refl s'
      · exact h.begin.of_exec hfailed
      · refine h.trans (h.begin.of_exec hopen) (h.trans ?_ (h.rollback t))
        rcases hfails with hwork | ⟨saved, s₂, cause, hwork, hcommit, -⟩
        · exact (h.work job strategy i start last).of_exec hwork
        · have hworked := (h.work job strategy i start last).of_exec hwork
          exact h.trans hworked (h.commit.of_exec hcommit)

end Batch.Takes

/-! ### Relations between worlds -/

/-- Whatever becomes of the attempt, it moves the world in the relation. -/
def Attempt.Moves (R : σ → σ → Prop) (x : Attempt σ ε α) : Prop :=
  ∀ s, R s.world (x.exec s).2.world

theorem Attempt.Moves.of_exec {x : Attempt σ ε α} {s s' : Session σ} {r : Except ε α}
    (h : x.Moves R) (hx : x.exec s = (r, s')) : R s.world s'.world := by
  have hmove := h s
  rwa [hx] at hmove

/-- Every call of the batch moves the world in the relation. -/
structure Batch.Moves (b : Batch σ) (R : σ → σ → Prop) : Prop where
  refl : ∀ w, R w w
  trans : ∀ {w₁ w₂ w₃}, R w₁ w₂ → R w₂ w₃ → R w₁ w₃
  findPage : ∀ completed after limit, (b.watchlist.findPage completed after limit).Moves R
  prices : ∀ endpoint key first last, (b.prices endpoint key first last).Moves R
  begin : b.store.begin.Moves R
  existingDates : ∀ key first last, (b.store.existingDates key first last).Moves R
  saveAll : ∀ key bars, (b.store.saveAll key bars).Moves R
  markCompleted : ∀ id, (b.store.markCompleted id).Moves R
  commit : b.store.commit.Moves R
  rollback : ∀ s, R s.world (b.store.rollback.exec s).2.world

namespace Batch

variable {b : Batch σ} {job : Job} {start last : Date} {o : Outcome} {s s' : Session σ}
  {page : List Instrument} {after : Option Int} {fuel : Nat} {turns : List (Turn σ)}
  {r : Except CollectError Outcome} {v : Visit σ}

/-- To move the world is to take the session on to one with another world. -/
theorem Moves.takes (h : b.Moves R) : b.Takes fun s s' => R s.world s'.world :=
  { h with
    refl := fun s => h.refl s.world
    trans := h.trans
    remark := fun s _ _ => h.refl s.world }

namespace Moves

theorem visit (h : b.Moves R) (hmakes : b.Makes v) : R v.before.world v.after.world := by
  by_cases hnone : v.instrument.assetType = none
  · obtain ⟨event, hafter⟩ := after_of_skipped hmakes hnone
    rw [hafter]
    exact h.refl v.before.world
  · rw [(after_of_processed hmakes hnone rfl).2]
    exact h.takes.process v.job v.instrument v.start v.last v.before

theorem loadPage (h : b.Moves R) (job : Job) (after : Option Int) :
    (b.loadPage job after).Moves R := by
  intro s
  rcases hload : (b.loadPage job after).exec s with ⟨r, s'⟩
  have hmoves := h.findPage job.visitsCompleted after b.config.instrumentPageSize
  cases r with
  | ok page => exact hmoves.of_exec (exec_loadPage_ok.mp hload)
  | error e =>
      obtain ⟨cause, t, -, hfind, rfl⟩ := exec_loadPage_error hload
      have hmove := hmoves.of_exec hfind
      exact hmove

theorem visitAll (h : b.Moves R) (job : Job) (start last : Date) (o : Outcome)
    (page : List Instrument) (s : Session σ) :
    R s.world (Act.exec (b.visitAll job start last o page) s).2.world ∧
      ∀ v ∈ b.visitsTo job start last o s page, R s.world v.before.world := by
  induction page generalizing o s with
  | nil => exact ⟨h.refl s.world, by simp [visitsTo]⟩
  | cons i rest ih =>
      let r := Act.exec (b.visit job start last o i) s
      have hmakes : b.Makes ⟨job, start, last, i, s, o, r.2, r.1⟩ := rfl
      have hvisit : R s.world r.2.world := h.visit hmakes
      obtain ⟨hrest, hvisits⟩ := ih r.1 r.2
      refine ⟨h.trans hvisit hrest, fun v hv => ?_⟩
      rcases List.mem_cons.mp hv with rfl | hv
      · exact h.refl s.world
      · exact h.trans hvisit (hvisits v hv)

end Moves

/-- A run moves the world in the relation from its start to its end, to each of its questions and to
each of its visits. -/
theorem Paging.moves (h : b.Moves R) (hpaging : b.Paging job start last fuel after o s turns r s') :
    R s.world s'.world ∧ (∀ t ∈ turns, R s.world t.asked.world) ∧
      ∀ v ∈ Turn.allVisits turns, R s.world v.before.world := by
  induction hpaging with
  | limit => exact ⟨h.refl _, by simp, by simp⟩
  | @failed _ after o s s' e hload =>
      have hmove := (h.loadPage job after).of_exec hload
      exact ⟨hmove, by simp [h.refl], by simp [Turn.allVisits]⟩
  | @last _ after o o' s s₁ s' page hload _ hvisits =>
      have hmove := (h.loadPage job after).of_exec hload
      obtain ⟨hall, hbefore⟩ := h.visitAll job start last o page s₁
      rw [hvisits] at hall
      refine ⟨h.trans hmove hall, by simp [h.refl], fun v hv => h.trans hmove (hbefore v ?_)⟩
      simpa [Turn.allVisits] using hv
  | @next _ after o o₁ s s₁ s₂ s' page i turns r hload _ _ hvisits _ ih =>
      have hmove := (h.loadPage job after).of_exec hload
      obtain ⟨hall, hbefore⟩ := h.visitAll job start last o page s₁
      rw [hvisits] at hall
      have hpage := h.trans hmove hall
      obtain ⟨hend, hasked, hvisited⟩ := ih
      refine ⟨h.trans hpage hend, fun t ht => ?_, fun v hv => ?_⟩
      · rcases List.mem_cons.mp ht with rfl | ht
        · exact h.refl s.world
        · exact h.trans hpage (hasked t ht)
      · rcases List.mem_append.mp hv with hv | hv
        · exact h.trans hmove (hbefore v hv)
        · exact h.trans hpage (hvisited v hv)

end Batch

end DailyBars
