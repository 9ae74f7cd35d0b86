import DailyBars.Proofs.Collect.Accounting
import DailyBars.Proofs.Rehearsal.Faithful
import Mathlib.Algebra.BigOperators.Group.List.Basic

/-!
# Running again repairs what failed

Say how far a job has come from some ledger by the instruments that it has collected since. The flags
and the rows then depend on this set alone: on nothing that failed, on no order, and on no repetition.
A run takes the set further with every visit that succeeds, and a run without failures takes it as far
as it can go. So it makes no difference how many runs failed before, and another run finds nothing
more to do.
-/

namespace DailyBars

variable {σ : Type} {ledger : σ → Ledger} {inv up : σ → Prop}

/-! ### Flags -/

namespace Job

variable {job : Job} {done done' instruments : List Instrument} {i : Instrument}

/-- A watchlist after a job was done on some instruments. -/
def marks (job : Job) (done instruments : List Instrument) : List Instrument :=
  match job with
  | collection => instruments
  | backfill => Ledger.flagged (done.map (·.id)) instruments

@[simp] theorem marks_nil (job : Job) (instruments : List Instrument) :
    job.marks [] instruments = instruments := by
  cases job with
  | collection => rfl
  | backfill => exact Ledger.flagged_nil instruments

theorem marks_marks (job : Job) (done done' instruments : List Instrument) :
    job.marks done' (job.marks done instruments) = job.marks (done ++ done') instruments := by
  cases job with
  | collection => rfl
  | backfill => simp only [marks, Ledger.flagged_flagged, List.map_append]

@[simp] theorem map_id_marks (job : Job) (done instruments : List Instrument) :
    (job.marks done instruments).map (·.id) = instruments.map (·.id) := by
  cases job with
  | collection => rfl
  | backfill => exact Ledger.map_id_flagged _ _

/-- The watchlist depends only on which instruments the job was done on. -/
theorem marks_congr (h : ∀ i, i ∈ done ↔ i ∈ done') :
    job.marks done instruments = job.marks done' instruments := by
  cases job with
  | collection => rfl
  | backfill =>
      unfold marks Ledger.flagged
      refine List.map_congr_left fun i _ => ?_
      have hids : i.id ∈ done.map (·.id) ↔ i.id ∈ done'.map (·.id) := by
        simp only [List.mem_map, h]
      simp only [List.contains_iff_mem, hids]

/-- What still has the flag that the job looks for has not been changed. -/
theorem mem_of_mem_marks (h : i ∈ job.marks done instruments)
    (hflag : i.backfillCompleted = job.visitsCompleted) : i ∈ instruments := by
  cases job with
  | collection => exact h
  | backfill => exact Ledger.mem_of_mem_flagged h hflag

theorem mem_marks_of_not_mem (h : i ∈ instruments) (hid : i.id ∉ done.map (·.id)) :
    i ∈ job.marks done instruments := by
  cases job with
  | collection => exact h
  | backfill => exact (Ledger.mem_flagged_of_not_mem hid).mpr h

end Job

namespace Batch

variable {b : Batch σ} {answers : PriceAnswers} {job : Job} {start last : Date} {l₀ l l' : Ledger}
  {done done' : List Instrument} {i : Instrument} {key : InstrumentKey} {s s' : Session σ}
  {visits : List (Visit σ)} {v : Visit σ}

theorem keptBy_eq (job : Job) (i : Instrument) (l : Ledger) (rows : List StoredBar) :
    keptBy job i l rows = (job.marks [i] l.instruments, l.rows ++ rows) := by
  cases job <;> rfl

/-- A visit that was not kept leaves nothing behind. -/
theorem committed_of_not_saved (laws : b.Transactional ledger) (hmakes : b.Makes v)
    (hend : ∀ n, b.endOf v ≠ .saved n) :
    (ledger v.after.world).committed = (ledger v.before.world).committed := by
  by_cases hnone : v.instrument.assetType = none
  · obtain ⟨event, hafter⟩ := after_of_skipped hmakes hnone
    rw [hafter]
  · rcases hrun : (b.process v.job v.instrument v.start v.last).exec v.before with ⟨r, t⟩
    rw [(after_of_processed hmakes hnone hrun).2]
    cases r with
    | ok saved => exact absurd (endOf_eq_ofResult hnone hrun) (hend saved)
    | error e => exact process_error laws hrun

theorem rows_of_not_saved (hend : ∀ n, b.endOf v ≠ .saved n) : (b.endOf v).rows = 0 := by
  cases h : b.endOf v with
  | skipped => rfl
  | saved n => exact absurd h (hend n)
  | failed e => rfl

/-! ### How far a job has come -/

/-- A run of the job that starts from the ledger comes to the instrument. -/
structure Reaches (b : Batch σ) (job : Job) (l : Ledger) (i : Instrument) : Prop where
  pageSize : 1 ≤ b.config.instrumentPageSize
  mem : i ∈ l.instruments
  flag : i.backfillCompleted = job.visitsCompleted

/-- Since the first ledger the job has been done on some instruments, and that is all: a day that had
no row then has the first bar for it that the job came by, if it came by one. -/
structure CaughtUp (b : Batch σ) (answers : PriceAnswers) (job : Job) (start last : Date)
    (l₀ l : Ledger) (done : List Instrument) : Prop where
  reached : ∀ i ∈ done, b.Reaches job l₀ i ∧ b.Collects i
  instruments : l.instruments = job.marks done l₀.instruments
  rows : ∀ key day, barsOn l.rows key day =
    if HasBar l₀.rows key day then barsOn l₀.rows key day
    else if ∃ i ∈ done, i.key? = some key then
      ((b.barsOf answers job start last key).find? fun c => c.tradeDate == day).toList
    else []

namespace CaughtUp

theorem refl (l : Ledger) : b.CaughtUp answers job start last l l [] := by
  refine ⟨by simp, (job.marks_nil _).symm, fun key day => ?_⟩
  split
  · rfl
  · rename_i hno
    rw [barsOn_eq_nil_iff.mpr hno, if_neg (by simp)]

theorem of_committed (h : b.CaughtUp answers job start last l₀ l done)
    (hsame : l'.committed = l.committed) : b.CaughtUp answers job start last l₀ l' done := by
  obtain ⟨hinstruments, hrows⟩ := Prod.mk.inj hsame
  exact ⟨h.reached, hinstruments.trans h.instruments, fun key day => hrows ▸ h.rows key day⟩

/-- Ledgers to which the job has come by the same instruments are the same. -/
theorem unique (h : b.CaughtUp answers job start last l₀ l done)
    (h' : b.CaughtUp answers job start last l₀ l' done') (hdone : ∀ i, i ∈ done ↔ i ∈ done') :
    l.instruments = l'.instruments ∧ l.rows.Perm l'.rows := by
  refine ⟨?_, perm_of_barsOn_eq fun key day => ?_⟩
  · rw [h.instruments, h'.instruments, Job.marks_congr hdone]
  · rw [h.rows, h'.rows]
    simp only [hdone]

/-- Every bar of an instrument that was collected has its day covered. -/
theorem hasBar (h : b.CaughtUp answers job start last l₀ l done) (hi : i ∈ done)
    (hkey : i.key? = some key) {c : Bar} (hc : c ∈ b.barsOf answers job start last key) :
    HasBar l.rows key c.tradeDate := by
  by_contra hno
  have hrows := h.rows key c.tradeDate
  rw [barsOn_eq_nil_iff.mpr hno] at hrows
  split at hrows
  · rename_i hbefore
    exact barsOn_eq_nil_iff.mp hrows.symm hbefore
  · rw [if_pos ⟨i, hi, hkey⟩] at hrows
    have hnone := Option.toList_eq_nil_iff.mp hrows.symm
    exact List.find?_eq_none.mp hnone c hc (by simp)

/-- Collecting an instrument takes the job further by it. -/
theorem collect (h : b.CaughtUp answers job start last l₀ l done) (hreached : b.Reaches job l₀ i)
    (hcollects : b.Collects i) (hkey : i.key? = some key)
    (hkept : l'.committed =
      keptBy job i l (absentRows l.rows key (b.barsOf answers job start last key))) :
    b.CaughtUp answers job start last l₀ l' (done ++ [i]) := by
  rw [keptBy_eq] at hkept
  obtain ⟨hinstruments, hrows⟩ := Prod.mk.inj hkept
  refine ⟨?_, ?_, fun other day => ?_⟩
  · intro j hj
    rcases List.mem_append.mp hj with hj | hj
    · exact h.reached j hj
    · rw [List.mem_singleton.mp hj]
      exact ⟨hreached, hcollects⟩
  · rw [hinstruments, h.instruments, Job.marks_marks]
  · have hmore : (∃ j ∈ done ++ [i], j.key? = some other) ↔
        (∃ j ∈ done, j.key? = some other) ∨ other = key := by
      simp [hkey, eq_comm, or_and_right, exists_or]
    have hbefore := h.rows other day
    rw [hrows, barsOn_append_absentRows]
    simp only [hmore]
    -- A day that has a row keeps it; one without gets the first bar for it if the key is the one.
    by_cases hrow : HasBar l.rows other day
    · rw [if_pos hrow, hbefore]
      have hsome : barsOn l.rows other day ≠ [] := fun hnil => barsOn_eq_nil_iff.mp hnil hrow
      by_cases hfirst : HasBar l₀.rows other day
      · rw [if_pos hfirst, if_pos hfirst]
      · rw [if_neg hfirst] at hbefore ⊢
        by_cases hdone : ∃ j ∈ done, j.key? = some other
        · rw [if_pos hdone, if_neg hfirst, if_pos (.inl hdone)]
        · rw [if_neg hdone] at hbefore
          exact absurd hbefore hsome
    · rw [if_neg hrow]
      rw [barsOn_eq_nil_iff.mpr hrow] at hbefore
      by_cases hfirst : HasBar l₀.rows other day
      · rw [if_pos hfirst] at hbefore
        exact absurd hfirst (barsOn_eq_nil_iff.mp hbefore.symm)
      · rw [if_neg hfirst] at hbefore ⊢
        by_cases hother : other = key
        · subst hother
          rw [if_pos rfl, if_pos (.inr rfl)]
        · rw [if_neg hother]
          by_cases hdone : ∃ j ∈ done, j.key? = some other
          · rw [if_pos hdone] at hbefore
            rw [if_pos (.inl hdone), ← hbefore]
          · rw [if_neg (fun h => h.elim hdone hother)]

/-- A visit that is kept takes the job further by its instrument. If the job was done on it before,
nothing is added, and nothing counted. -/
theorem visit (laws : b.Faithful ledger answers inv)
    (h : b.CaughtUp answers job start last l₀ (ledger v.before.world) done) (hmakes : b.Makes v)
    (hinv : inv v.before.world) (hjob : v.job = job ∧ v.start = start ∧ v.last = last)
    (hreached : b.Reaches job l₀ v.instrument) {saved : Nat} (hend : b.endOf v = .saved saved) :
    b.CaughtUp answers job start last l₀ (ledger v.after.world) (done ++ [v.instrument]) ∧
      (v.instrument ∈ done →
        (ledger v.after.world).rows = (ledger v.before.world).rows ∧ saved = 0) := by
  obtain ⟨t, hrun⟩ := exec_process_of_endOf (r := .ok saved) hend
  have hsome : v.instrument.assetType ≠ none := by
    intro hnone
    rw [endOf_eq_skipped.mpr hnone] at hend
    cases hend
  have hworld := (after_of_processed hmakes hsome hrun).2
  obtain ⟨hcollects, key, hkey, hkept, hzero⟩ := laws.process hinv hrun
  obtain ⟨rfl, rfl, rfl⟩ := hjob
  rw [← hworld] at hkept
  refine ⟨h.collect hreached hcollects hkey hkept, fun hdone => ?_⟩
  have hall : ∀ c ∈ b.barsOf answers v.job v.start v.last key,
      HasBar (ledger v.before.world).rows key c.tradeDate := fun c hc => h.hasBar hdone hkey hc
  rw [keptBy_eq, absentRows_eq_nil hall, List.append_nil] at hkept
  exact ⟨congrArg Prod.snd hkept, hzero hall⟩

/-- A series of visits takes the job further by the instruments of those that were kept. If the job
was done on them all before, nothing is added, and nothing counted. -/
theorem history (laws : b.Faithful ledger answers inv) (hhistory : b.History ledger s visits s')
    (h : b.CaughtUp answers job start last l₀ (ledger s.world) done)
    (hvisits : ∀ v ∈ visits, inv v.before.world ∧ (v.job = job ∧ v.start = start ∧ v.last = last) ∧
      b.Reaches job l₀ v.instrument) :
    ∃ done', b.CaughtUp answers job start last l₀ (ledger s'.world) done' ∧
      (∀ i, i ∈ done' ↔
        i ∈ done ∨ ∃ v ∈ visits, v.instrument = i ∧ ∃ saved, b.endOf v = .saved saved) ∧
      ((∀ v ∈ visits, ∀ saved, b.endOf v = .saved saved → v.instrument ∈ done) →
        (ledger s'.world).rows = (ledger s.world).rows ∧ ∀ v ∈ visits, (b.endOf v).rows = 0) := by
  induction hhistory generalizing done with
  | quiet hsame =>
      exact ⟨done, h.of_committed hsame, by simp, fun _ => ⟨congrArg Prod.snd hsame, by simp⟩⟩
  | @visit s s' v vs hbefore hmakes _ ih =>
      obtain ⟨hinv, hjob, hreached⟩ := hvisits v List.mem_cons_self
      have hrest : ∀ w ∈ vs, inv w.before.world ∧
          (w.job = job ∧ w.start = start ∧ w.last = last) ∧ b.Reaches job l₀ w.instrument :=
        fun w hw => hvisits w (List.mem_cons_of_mem _ hw)
      have hstart := h.of_committed hbefore
      have hrows : (ledger v.before.world).rows = (ledger s.world).rows := congrArg Prod.snd hbefore
      by_cases hsaved : ∃ saved, b.endOf v = .saved saved
      · -- The visit takes the job further by its instrument, and the others go on from there.
        obtain ⟨saved, hend⟩ := hsaved
        obtain ⟨hafter, hnothing⟩ := hstart.visit laws hmakes hinv hjob hreached hend
        obtain ⟨done', hdone', hmem, hquiet⟩ := ih hafter hrest
        refine ⟨done', hdone', fun i => ?_, fun hall => ?_⟩
        · have hhere : (v.instrument = i ∧ ∃ n, b.endOf v = .saved n) ↔ i = v.instrument :=
            ⟨fun h => h.1.symm, fun h => ⟨h.symm, saved, hend⟩⟩
          rw [hmem i, List.exists_mem_cons_iff, hhere, List.mem_append, List.mem_singleton, or_assoc]
        · have hhere := hall v List.mem_cons_self saved hend
          obtain ⟨hkept, rfl⟩ := hnothing hhere
          obtain ⟨hsame, hzero⟩ := hquiet fun w hw n hwend =>
            List.mem_append_left _ (hall w (List.mem_cons_of_mem _ hw) n hwend)
          refine ⟨hsame.trans (hkept.trans hrows), fun w hw => ?_⟩
          rcases List.mem_cons.mp hw with rfl | hw
          · rw [hend]
            rfl
          · exact hzero w hw
      · -- The visit has left nothing, so it is as if it had not been made.
        have hsame := committed_of_not_saved laws.transactional hmakes fun n hn => hsaved ⟨n, hn⟩
        obtain ⟨done', hdone', hmem, hquiet⟩ := ih (hstart.of_committed hsame) hrest
        refine ⟨done', hdone', fun i => ?_, fun hall => ?_⟩
        · rw [hmem i]
          simp only [List.mem_cons, exists_eq_or_imp, hsaved, and_false, false_or]
        · obtain ⟨hkept, hzero⟩ := hquiet fun w hw n hwend =>
            hall w (List.mem_cons_of_mem _ hw) n hwend
          refine ⟨hkept.trans ((congrArg Prod.snd hsame).trans hrows), fun w hw => ?_⟩
          rcases List.mem_cons.mp hw with rfl | hw
          · exact rows_of_not_saved fun n hn => hsaved ⟨n, hn⟩
          · exact hzero w hw

end CaughtUp

/-! ### Runs -/

/-- The visits of a run, however it ends, are to instruments that the job reaches from the first
ledger. -/
theorem reaches_of_visited (laws : b.Faithful ledger answers inv) {turns : List (Turn σ)}
    {fuel : Nat} {after : Option Int} {o : Outcome} {r : Except CollectError Outcome}
    (hpaging : b.Paging job start last fuel after o s turns r s')
    (nodup : (l₀.instruments.map (·.id)).Nodup)
    (h : b.CaughtUp answers job start last l₀ (ledger s.world) done) (hinv : inv s.world) :
    ∀ v ∈ Turn.allVisits turns, inv v.before.world ∧
      (v.job = job ∧ v.start = start ∧ v.last = last) ∧ b.Reaches job l₀ v.instrument := by
  intro v hv
  have hids : ((ledger s.world).instruments.map (·.id)).Nodup := by
    rw [h.instruments, Job.map_id_marks]
    exact nodup
  obtain ⟨hsize, hmem, hflag⟩ := hpaging.due_of_visited laws.transactional laws.watches hids
    (List.mem_map_of_mem hv)
  rw [h.instruments] at hmem
  exact ⟨(hpaging.moves laws.keeps).2.2 v hv hinv, (hpaging.makes hv).2,
    ⟨hsize, Job.mem_of_mem_marks hmem hflag, hflag⟩⟩

theorem listed_of_caughtUp (listed : Ledger.Listed l₀.instruments)
    (h : b.CaughtUp answers job start last l₀ l done) : Ledger.Listed l.instruments := by
  have hids : l.instruments.map (·.id) = l₀.instruments.map (·.id) := by
    rw [h.instruments, Job.map_id_marks]
  exact ⟨hids ▸ listed.nodup, hids ▸ listed.bounded⟩

/-- An instrument that the job has not been done on is in the watchlist as it was. -/
theorem CaughtUp.mem_of_not_mem (nodup : (l₀.instruments.map (·.id)).Nodup)
    (h : b.CaughtUp answers job start last l₀ l done) (hreached : b.Reaches job l₀ i)
    (hi : i ∉ done) : i ∈ l.instruments := by
  rw [h.instruments]
  refine Job.mem_marks_of_not_mem hreached.mem fun hid => hi ?_
  obtain ⟨j, hj, hsame⟩ := List.mem_map.mp hid
  obtain rfl : j = i := List.inj_on_of_nodup_map nodup (h.reached j hj).1.mem hreached.mem hsame
  exact hj

/-- Where nothing fails, a visit to an instrument that can be collected is kept. -/
theorem endOf_of_collects (neverFails : b.NeverFails up) (hcollects : b.Collects v.instrument)
    (hup : up v.before.world) : ∃ saved, b.endOf v = .saved saved := by
  obtain ⟨saved, t, hrun⟩ := neverFails.process v.job v.start v.last hcollects hup
  refine ⟨saved, endOf_eq_ofResult ?_ hrun⟩
  obtain ⟨⟨strategy, hfind⟩, -⟩ := hcollects
  intro hnone
  rw [hnone] at hfind
  cases hfind

/-- Any run takes the job further, whatever fails in it. -/
theorem CaughtUp.run (laws : b.Faithful ledger answers inv)
    (nodup : (l₀.instruments.map (·.id)).Nodup) (hinv : inv s.world)
    (h : b.CaughtUp answers job start last l₀ (ledger s.world) done) :
    inv ((b.run job start last).exec s).2.world ∧
      ∃ done', b.CaughtUp answers job start last l₀
        (ledger ((b.run job start last).exec s).2.world) done' := by
  obtain ⟨turns, s₀, r, s₁, hworld₀, hpaging, -, hworld₁⟩ := exists_traces b job start last s
  rw [← hworld₀] at hinv h
  rw [hworld₁]
  have hvisits := reaches_of_visited laws hpaging nodup h hinv
  obtain ⟨done', hdone', -⟩ := h.history laws (hpaging.history laws.transactional) hvisits
  exact ⟨(hpaging.moves laws.keeps).1 hinv, done', hdone'⟩

/-- A run without failures takes the job as far as it can go. If it was there already, the run saves
nothing and changes nothing. -/
theorem CaughtUp.run_to_end (laws : b.Faithful ledger answers inv) (neverFails : b.NeverFails up)
    (hinv : ∀ w, up w → inv w) (listed : Ledger.Listed l₀.instruments) (hup : up s.world)
    (h : b.CaughtUp answers job start last l₀ (ledger s.world) done) :
    ∃ o done', ((b.run job start last).exec s).1 = .ok o ∧
      b.CaughtUp answers job start last l₀ (ledger ((b.run job start last).exec s).2.world) done' ∧
      (∀ i, i ∈ done' ↔ b.Reaches job l₀ i ∧ b.Collects i) ∧
      ((∀ i, b.Reaches job l₀ i → b.Collects i → i ∈ done) → o.savedRows = 0 ∧
        (ledger ((b.run job start last).exec s).2.world).committed = (ledger s.world).committed) := by
  obtain ⟨turns, s₀, r, s₁, hworld₀, hpaging, ⟨elapsed, hresult⟩, hworld₁⟩ :=
    exists_traces b job start last s
  rw [← hworld₀] at hup h ⊢
  rw [hresult, hworld₁]
  have answered := hpaging.answered neverFails.moves
    (fun completed after limit s hup => by
      obtain ⟨page, s', hpage, -⟩ := neverFails.findPage completed after limit s hup
      exact ⟨page, s', hpage⟩) hup
  have hvisits := reaches_of_visited laws hpaging listed.nodup h (hinv _ hup)
  obtain ⟨done', hdone', hmem, hquiet⟩ :=
    h.history laws (hpaging.history laws.transactional) hvisits
  cases r with
  | error e =>
      obtain ⟨t, ht, herror⟩ := hpaging.error_iff.mp rfl
      obtain ⟨page, hpage⟩ := answered t ht
      cases herror.symm.trans hpage
  | ok o =>
  have haccount : o.Accounts ((Turn.allVisits turns).map b.endOf) := by
    rw [hpaging.outcome_eq]
    exact Outcome.Accounts.nil.foldl _
  have hall : ∀ i, i ∈ done' ↔ b.Reaches job l₀ i ∧ b.Collects i := by
    refine fun i => ⟨hdone'.reached i, fun ⟨hreached, hcollects⟩ => (hmem i).mpr ?_⟩
    by_cases hi : i ∈ done
    · exact .inl hi
    · -- Not collected before, it is still due, so it is visited, and nothing can fail.
      obtain ⟨-, -, -, hdue⟩ := hpaging.sweeps laws.watches hreached.pageSize
        (listed_of_caughtUp listed h) (fun a ha => nomatch ha) (Nat.le_refl _) answered
      have hvisited : i ∈ Turn.visited turns := by
        rw [hdue laws.transactional, Ledger.mem_due]
        exact ⟨h.mem_of_not_mem listed.nodup hreached hi, hreached.flag, fun a ha => nomatch ha⟩
      obtain ⟨v, hv, rfl⟩ := List.mem_map.mp hvisited
      exact .inr ⟨v, hv, rfl,
        endOf_of_collects neverFails hcollects ((hpaging.moves neverFails.moves).2.2 v hv hup)⟩
  refine ⟨_, done', rfl, hdone', hall, fun hbefore => ?_⟩
  obtain ⟨hrows, hzero⟩ := hquiet fun v hv saved hend => by
    obtain ⟨hreached, hcollects⟩ :=
      (hall v.instrument).mp ((hmem _).mpr (.inr ⟨v, hv, rfl, saved, hend⟩))
    exact hbefore v.instrument hreached hcollects
  refine ⟨?_, Prod.ext ?_ hrows⟩
  · refine haccount.savedRows.trans (List.sum_eq_zero fun n hn => ?_)
    simp only [List.mem_map, exists_exists_and_eq_and] at hn
    obtain ⟨v, hv, rfl⟩ := hn
    exact hzero v hv
  · refine hdone'.instruments.trans (Eq.trans (Job.marks_congr fun i => ?_) h.instruments.symm)
    rw [hall i]
    exact ⟨fun hi => hbefore i hi.1 hi.2, h.reached i⟩

/-- Where a run of a job starts. -/
def startOf (b : Batch σ) (r : BatchRun) : Date :=
  match r.job with
  | .collection => r.day
  | .backfill => b.config.backfillStart

theorem perform_eq (b : Batch σ) (r : BatchRun) : b.perform r = b.run r.job (b.startOf r) r.day := by
  obtain ⟨job, day⟩ := r
  cases job <;> rfl

/-- Any number of runs takes the job further, whatever fails in them. -/
theorem CaughtUp.performAll (laws : b.Faithful ledger answers inv) (r : BatchRun)
    (nodup : (l₀.instruments.map (·.id)).Nodup) (n : Nat) (hinv : inv s.world)
    (h : b.CaughtUp answers r.job (b.startOf r) r.day l₀ (ledger s.world) done) :
    ∃ done', b.CaughtUp answers r.job (b.startOf r) r.day l₀
      (ledger (Act.exec (b.performAll (List.replicate n r)) s).2.world) done' := by
  induction n generalizing s done with
  | zero => exact ⟨done, h⟩
  | succ n ih =>
      obtain ⟨hinv', done₁, hdone₁⟩ := h.run laws nodup hinv
      rw [List.replicate_succ, Batch.performAll, Act.exec_bind, Act.exec_run, perform_eq]
      exact ih hinv' hdone₁

/-- **Running again repairs what failed.** Take any number of runs of a job, in which anything may
fail, and after them a run from what they committed in which nothing fails. It leaves the same flags
and the same rows as a run without failures would have left in the first place. And from there any
further run without failures saves nothing and changes nothing. -/
theorem rerun_recovers (laws : b.Faithful ledger answers inv) (neverFails : b.NeverFails up)
    (hinv : ∀ w, up w → inv w) (r : BatchRun) (n : Nat) (s t t₀ : Session σ) (hs : inv s.world)
    (listed : Ledger.Listed (ledger s.world).instruments) (ht : up t.world)
    (hafter : (ledger t.world).committed =
      (ledger (Act.exec (b.performAll (List.replicate n r)) s).2.world).committed)
    (ht₀ : up t₀.world) (hbefore : (ledger t₀.world).committed = (ledger s.world).committed) :
    ∃ o o₀ s' s₀', (b.perform r).exec t = (.ok o, s') ∧ (b.perform r).exec t₀ = (.ok o₀, s₀') ∧
      (ledger s'.world).instruments = (ledger s₀'.world).instruments ∧
      (ledger s'.world).rows.Perm (ledger s₀'.world).rows ∧
      ∀ u, up u.world → (ledger u.world).committed = (ledger s'.world).committed →
        ∃ o' u', (b.perform r).exec u = (.ok o', u') ∧ o'.savedRows = 0 ∧
          (ledger u'.world).committed = (ledger u.world).committed := by
  rw [perform_eq]
  -- How far the failing runs have come, and how far a run without failures gets from either ledger.
  obtain ⟨done, hdone⟩ := (CaughtUp.refl (ledger s.world)).performAll laws r listed.nodup n hs
  obtain ⟨o, done₁, ho, hdone₁, hall₁, -⟩ :=
    (hdone.of_committed hafter).run_to_end laws neverFails hinv listed ht
  obtain ⟨o₀, done₀, ho₀, hdone₀, hall₀, -⟩ :=
    ((CaughtUp.refl (ledger s.world)).of_committed hbefore).run_to_end laws neverFails hinv listed ht₀
  obtain ⟨hinstruments, hrows⟩ := hdone₁.unique hdone₀ fun i => by rw [hall₁, hall₀]
  refine ⟨o, o₀, _, _, Prod.ext ho rfl, Prod.ext ho₀ rfl, hinstruments, hrows, fun u hu hsame => ?_⟩
  obtain ⟨o', -, ho', -, -, hnothing⟩ :=
    (hdone₁.of_committed hsame).run_to_end laws neverFails hinv listed hu
  obtain ⟨hzero, hkept⟩ := hnothing fun i hreached hcollects => (hall₁ i).mpr ⟨hreached, hcollects⟩
  exact ⟨o', _, Prod.ext ho' rfl, hzero, hkept⟩

/-- Backfills with a store that fails every fifth call and a broker that fails for one of two
instruments, three of them, and then one in a new process where nothing fails. -/
theorem rerun_recovers_after_three :
    let instrument (id : Int) (code : String) : Instrument :=
      ⟨id, code, none, none, some .domesticStock, false⟩
    let day (n : Nat) : Date := ((default : Date).addDays? n).getD default
    let good : RehearsalMarket := ⟨2, .oldestFirst, false,
      [("005930", [day 0, day 1, day 2]), ("000660", [day 1, day 3])], [], [], []⟩
    let failsFifth (n : Nat) (_ : StoreCall) : Option StorageError :=
      if n % 5 = 4 then some (.connection "connection refused") else none
    let ledger := RehearsalStore.ledgerOf RehearsalWorld.storePart
    let batch := RehearsalWorld.batch (.full 2) ⟨10, 2, day 0⟩
    let run : BatchRun := ⟨.backfill, day 9⟩
    -- A new process on what is committed, with nothing that fails.
    let fresh (l : Ledger) : Session RehearsalWorld :=
      ⟨⟨.ofLedger ⟨l.instruments, l.rows, none⟩, good, .empty⟩, ⟨default, 0⟩, []⟩
    let start : Ledger := .ofInstruments [instrument 1 "005930", instrument 2 "000660"]
    let s : Session RehearsalWorld :=
      ⟨⟨{ RehearsalStore.ofLedger start with plan := failsFifth },
        { good with faults := [⟨"000660", 0, .rateLimited⟩] }, .empty⟩, ⟨default, 0⟩, []⟩
    let t := fresh (ledger (Act.exec (batch.performAll (List.replicate 3 run)) s).2.world)
    ∃ o o₀ s' s₀', (batch.perform run).exec t = (.ok o, s') ∧
      (batch.perform run).exec (fresh start) = (.ok o₀, s₀') ∧
      (ledger s'.world).instruments = (ledger s₀'.world).instruments ∧
      (ledger s'.world).rows.Perm (ledger s₀'.world).rows ∧
      ∃ o' u', (batch.perform run).exec (fresh (ledger s'.world)) = (.ok o', u') ∧
        o'.savedRows = 0 ∧ (ledger u'.world).committed = (ledger s'.world).committed := by
  intro instrument day good failsFifth ledger batch run fresh start s t
  have isUp (l : Ledger) : RehearsalWorld.IsUp good (fresh l).world :=
    ⟨fun _ => rfl, rfl, fun _ _ => rfl⟩
  have committed (l : Ledger) : (ledger (fresh l).world).committed = l.committed := rfl
  have laws : batch.Faithful ledger (fun endpoint key first last =>
      good.page ⟨endpoint, key, first, last⟩) (RehearsalWorld.Serves good) :=
    RehearsalWorld.faithful_batch (.full 2) ⟨10, 2, day 0⟩ good
  have neverFails : batch.NeverFails (RehearsalWorld.IsUp good) :=
    RehearsalWorld.neverFails_batch (.full 2) ⟨10, 2, day 0⟩ good
  obtain ⟨o, o₀, s', s₀', ho, ho₀, hinstruments, hrows, hagain⟩ :=
    rerun_recovers laws neverFails (fun w hup => hup.serves) run 3 s t (fresh start) (fun _ => rfl)
      ⟨by decide, by decide⟩ (isUp _) (committed _) (isUp _) (committed _)
  obtain ⟨o', u', ho', hzero, hsame⟩ :=
    hagain (fresh (ledger s'.world)) (isUp _) (committed (ledger s'.world))
  exact ⟨o, o₀, s', s₀', ho, ho₀, hinstruments, hrows, o', u', ho', hzero,
    hsame.trans (committed (ledger s'.world))⟩

end Batch

end DailyBars
