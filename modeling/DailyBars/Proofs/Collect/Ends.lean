import DailyBars.Proofs.Collect.Turns

/-!
# How visits end

A visit is skipped, or its transaction is kept and has saved a number of rows, or it fails. How it
ends is a matter of the broker and the store alone; what was counted before has no say in it. The
outcome of a run is the count of the ends of its visits, one after the other.
-/

namespace DailyBars

variable {σ : Type}

/-- How a visit ends. -/
inductive VisitEnd where
  /-- Nothing was asked, for the instrument has no asset type. -/
  | skipped
  | saved (rows : Nat)
  | failed (e : CollectError)
  deriving DecidableEq

/-- How a visit ends whose transaction gave a result. -/
def VisitEnd.ofResult : Except CollectError Nat → VisitEnd
  | .ok rows => .saved rows
  | .error e => .failed e

/-- Counts a visit by its end. -/
def Outcome.count (o : Outcome) : VisitEnd → Outcome
  | .skipped => o.addSkipped
  | .saved rows => o.addSuccess rows
  | .failed e => o.addFailure e.kind

namespace Batch

variable {b : Batch σ} {job : Job} {start last : Date} {after : Option Int} {o o' : Outcome}
  {s s' : Session σ} {page : List Instrument} {turns : List (Turn σ)} {fuel : Nat} {v : Visit σ}

/-- How a visit ends. -/
def endOf (b : Batch σ) (v : Visit σ) : VisitEnd :=
  if v.instrument.assetType.isNone then .skipped
  else .ofResult ((b.process v.job v.instrument v.start v.last).exec v.before).1

/-- A visit to an instrument without an asset type only writes to the log. -/
theorem after_of_skipped (h : b.Makes v) (hnone : v.instrument.assetType = none) :
    ∃ event, v.after = { v.before with log := v.before.log ++ [event] } := by
  unfold Makes visit at h
  rw [if_pos (by rw [hnone]; rfl)] at h
  exact ⟨_, (congrArg Prod.snd h).symm⟩

/-- Any other visit is counted by the result of its transaction, and does to the world what that
does. -/
theorem after_of_processed {r : Except CollectError Nat} {t : Session σ} (h : b.Makes v)
    (hsome : v.instrument.assetType ≠ none)
    (hrun : (b.process v.job v.instrument v.start v.last).exec v.before = (r, t)) :
    v.outcomeAfter = v.outcomeBefore.count (.ofResult r) ∧ v.after.world = t.world := by
  unfold Makes visit at h
  rw [if_neg (by simpa using hsome), Act.exec_bind, Act.exec_run, hrun] at h
  cases r with
  | ok saved =>
      obtain ⟨houtcome, hafter⟩ := Prod.mk.inj h
      exact ⟨houtcome.symm, by rw [← hafter]⟩
  | error e =>
      obtain ⟨houtcome, hafter⟩ := Prod.mk.inj h
      exact ⟨houtcome.symm, by rw [← hafter]; exact world_logFailure v.job v.instrument e t⟩

theorem endOf_eq_skipped : b.endOf v = .skipped ↔ v.instrument.assetType = none := by
  unfold endOf
  split
  · simp_all
  · cases ((b.process v.job v.instrument v.start v.last).exec v.before).1 <;>
      simp_all [VisitEnd.ofResult]

theorem endOf_eq_ofResult {r : Except CollectError Nat} {t : Session σ}
    (hsome : v.instrument.assetType ≠ none)
    (hrun : (b.process v.job v.instrument v.start v.last).exec v.before = (r, t)) :
    b.endOf v = .ofResult r := by
  rw [endOf, if_neg (by simpa using hsome), hrun]

/-- Every visit is counted by its end. -/
theorem outcomeAfter_eq_count (h : b.Makes v) :
    v.outcomeAfter = v.outcomeBefore.count (b.endOf v) := by
  by_cases hnone : v.instrument.assetType = none
  · rw [endOf_eq_skipped.mpr hnone]
    unfold Makes visit at h
    rw [if_pos (by rw [hnone]; rfl)] at h
    exact (congrArg Prod.fst h).symm
  · rw [endOf_eq_ofResult hnone rfl]
    exact (after_of_processed h hnone rfl).1

theorem exec_process_of_endOf {r : Except CollectError Nat} (h : b.endOf v = .ofResult r) :
    ∃ t, (b.process v.job v.instrument v.start v.last).exec v.before = (r, t) := by
  unfold endOf at h
  split at h
  · cases r <;> cases h
  · rcases hrun : (b.process v.job v.instrument v.start v.last).exec v.before with ⟨r', t⟩
    rw [hrun] at h
    refine ⟨t, ?_⟩
    cases r <;> cases r' <;> cases h <;> rfl

/-- The outcome after the visits to a page is the count of their ends. -/
theorem exec_visitAll (b : Batch σ) (job : Job) (start last : Date) (o : Outcome)
    (page : List Instrument) (s : Session σ) :
    (Act.exec (b.visitAll job start last o page) s).1 =
      ((b.visitsTo job start last o s page).map b.endOf).foldl Outcome.count o := by
  induction page generalizing o s with
  | nil => rfl
  | cons i rest ih =>
      let r := Act.exec (b.visit job start last o i) s
      have hmakes : b.Makes ⟨job, start, last, i, s, o, r.2, r.1⟩ := rfl
      rw [visitAll, Act.exec_bind, ih, visitsTo, List.map_cons, List.foldl_cons,
        ← outcomeAfter_eq_count hmakes]

/-- The outcome of a run is the count of the ends of its visits. -/
theorem Paging.outcome_eq (h : b.Paging job start last fuel after o s turns (.ok o') s') :
    o' = ((Turn.allVisits turns).map b.endOf).foldl Outcome.count o := by
  generalize hr : (.ok o' : Except CollectError Outcome) = r at h
  induction h with
  | limit => cases hr; rfl
  | failed => cases hr
  | last _ _ hvisits =>
      cases hr
      rw [Turn.allVisits_cons, Turn.allVisits_nil, List.append_nil, ← exec_visitAll, hvisits]
  | next _ _ _ hvisits _ ih =>
      rw [ih hr, Turn.allVisits_cons, List.map_append, List.foldl_append, ← exec_visitAll, hvisits]

end Batch

end DailyBars
