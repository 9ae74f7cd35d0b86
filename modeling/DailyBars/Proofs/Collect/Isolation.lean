import DailyBars.Proofs.Rehearsal.Agreement

/-!
# Failures stay with their instrument

Two runs of a job are compared that start from the same committed state, and in which the broker and
the store behave the same for every instrument but one. Whatever becomes of that one, the runs go
through the same instruments in the same order, and for every other one they ask the same questions,
come to the same end and keep the same.

The runs are followed side by side. Between two visits the ledgers are the same without the one
instrument: what is added for the others is added in both, and what is added for the one does not
show. The pages are the same because what is due after the cursor is: up to the page that it is on,
the flag of the one instrument is as it was at the start, and after that page nobody asks for it.
-/

namespace DailyBars

variable {σ : Type} {ledger : σ → Ledger} {requests : σ → List PriceRequest}

namespace Batch

variable {b : Batch σ} {job : Job} {i x : Instrument} {start last : Date} {after : Option Int}
  {o o' : Outcome} {s s' t t' : Session σ} {page : List Instrument}
  {turns turns' : List (Turn σ)} {fuel : Nat} {r r' : Except CollectError Outcome}
  {v v' : Visit σ}

/-- What is saved for a key is drafted under the key. -/
def SavesApart (b : Batch σ) (ledger : σ → Ledger) : Prop :=
  ∀ key bars, (b.store.saveAll key bars).ChangesBy ledger (Ledger.DraftedUnder (some key))

/-- Two visits to the same instrument. Afterwards the ledgers are the same without `x`; and unless it
is the instrument, the broker was asked the same questions, and the visits end alike. -/
structure DiffersFor (b : Batch σ) (ledger : σ → Ledger) (requests : σ → List PriceRequest)
    (x : Instrument) (v v' : Visit σ) : Prop where
  instrument : v.instrument = v'.instrument
  after : (ledger v.after.world).without x = (ledger v'.after.world).without x
  asked : v.instrument.id ≠ x.id → AskedAlike requests (requests v.before.world)
    (requests v'.before.world) v.after.world v'.after.world
  ends : v.instrument.id ≠ x.id → b.endOf v = b.endOf v'
  /-- Each visit is counted by its end. -/
  counted : v.outcomeAfter = v.outcomeBefore.count (b.endOf v) ∧
    v'.outcomeAfter = v'.outcomeBefore.count (b.endOf v')

/-- Two visits of a job to the same instrument, from ledgers that are the same without `x`. -/
structure Pair (b : Batch σ) (ledger : σ → Ledger) (x : Instrument) (v v' : Visit σ) : Prop where
  makes : b.Makes v
  makes' : b.Makes v'
  instrument : v.instrument = v'.instrument
  job : v.job = v'.job
  start : v.start = v'.start
  last : v.last = v'.last
  before : (ledger v.before.world).without x = (ledger v'.before.world).without x

theorem Pair.counted (h : b.Pair ledger x v v') :
    v.outcomeAfter = v.outcomeBefore.count (b.endOf v) ∧
      v'.outcomeAfter = v'.outcomeBefore.count (b.endOf v') :=
  ⟨outcomeAfter_eq_count h.makes, outcomeAfter_eq_count h.makes'⟩

/-- If the visits are to the same instrument, which is not `x`, the calls for it come to the same in
both, provided that the ledgers are the same without `x`. -/
def AlikeBesides (b : Batch σ) (ledger : σ → Ledger) (x : Instrument) (v v' : Visit σ) : Prop :=
  v.instrument = v'.instrument → v.instrument.id ≠ x.id →
    (ledger v.before.world).without x = (ledger v'.before.world).without x →
    b.BehavesAlike ledger v.instrument v.before v'.before

/-- In two runs the broker and the store behave the same for every instrument but `x`. -/
structure BehaveBesides (b : Batch σ) (ledger : σ → Ledger) (x : Instrument)
    (turns turns' : List (Turn σ)) : Prop where
  /-- Questions for the same page fail alike. -/
  pages : ∀ t ∈ turns, ∀ t' ∈ turns', t.after = t'.after →
    (ledger t.asked.world).without x = (ledger t'.asked.world).without x →
    ∀ e, t.answer = .error e ↔ t'.answer = .error e
  visits : ∀ v ∈ Turn.allVisits turns, ∀ v' ∈ Turn.allVisits turns', b.AlikeBesides ledger x v v'

theorem BehaveBesides.head {first first' : Turn σ}
    (h : b.BehaveBesides ledger x (first :: turns) (first' :: turns')) :
    ∀ v ∈ first.visits, ∀ v' ∈ first'.visits, b.AlikeBesides ledger x v v' :=
  fun v hv v' hv' => h.visits v (List.mem_append_left _ hv) v' (List.mem_append_left _ hv')

theorem BehaveBesides.tail {first first' : Turn σ}
    (h : b.BehaveBesides ledger x (first :: turns) (first' :: turns')) :
    b.BehaveBesides ledger x turns turns' where
  pages t ht t' ht' := h.pages t (List.mem_cons_of_mem _ ht) t' (List.mem_cons_of_mem _ ht')
  visits v hv v' hv' := h.visits v (List.mem_append_right _ hv) v' (List.mem_append_right _ hv')

/-- A full page does not end the loop. -/
theorem not_end_of_full {z : Instrument} (hlast : page.getLast? = some z)
    (hfull : b.config.instrumentPageSize ≤ page.length) :
    ¬ (page = [] ∨ page.length < b.config.instrumentPageSize) := by
  rintro (rfl | hshort)
  · cases hlast
  · exact absurd hshort (Nat.not_lt.mpr hfull)

/-! ### A visit -/

section Visit

variable (laws : b.Transactional ledger) (apart : b.SavesApart ledger)

include laws apart

/-- What is gathered for an instrument is under its key. -/
theorem key_of_gathers {l : Ledger} {saved : Nat} {rows : List StoredBar}
    (h : b.Gathers ledger job i start last l saved rows) : ∀ r ∈ rows, some r.key = i.key? := by
  obtain ⟨strategy, opened, gathered, -, hopened, hgather, hrows⟩ := h
  obtain ⟨rows', hrows', hkeys⟩ := (changesBy_gather (Ledger.drafting_draftedUnder i.key?) laws
    (fun key hkey bars => hkey ▸ apart key bars) job strategy start last).ok _ _ _ hgather
  rw [hopened, hrows] at hrows'
  -- Both lists are what the walk has drafted in a new transaction, so they are one.
  have hsame : rows = rows' := by simpa [Ledger.addRows, Ledger.begin] using hrows'
  exact hsame ▸ hkeys

/-- A visit to an instrument does not show without it. -/
theorem without_visit (h : b.Makes v) (hid : v.instrument.id = x.id)
    (hkey : v.instrument.key? = x.key?) :
    (ledger v.after.world).without x = (ledger v.before.world).without x := by
  rcases visit_cases laws h with ⟨-, hkept⟩ | ⟨saved, rows, -, hgathers, hkept⟩
  · exact Ledger.without_eq_of_committed hkept
  · have hrows : ∀ r ∈ rows, some r.key = x.key? := hkey ▸ key_of_gathers laws apart hgathers
    cases hjob : v.job with
    | collection =>
        rw [hjob, keptBy, ← Ledger.flagged_nil (ledger v.before.world).instruments] at hkept
        exact Ledger.without_of_own hkept (by simp) hrows
    | backfill =>
        rw [hjob, keptBy] at hkept
        exact Ledger.without_of_own hkept (by simp [hid]) hrows

/-- Two visits to `x` differ for `x` alone. -/
theorem Pair.differsFor_own (h : b.Pair ledger x v v') (hid : v.instrument.id = x.id)
    (hkey : v.instrument.key? = x.key?) : b.DiffersFor ledger requests x v v' := by
  have hone := without_visit laws apart h.makes hid hkey
  have hother := without_visit laws apart h.makes' (h.instrument ▸ hid) (h.instrument ▸ hkey)
  exact ⟨h.instrument, hone.trans (h.before.trans hother.symm), absurd hid, absurd hid, h.counted⟩

omit laws apart in
/-- Visits to an instrument without an asset type ask for nothing. -/
theorem Pair.differsFor_skipped (h : b.Pair ledger x v v') (hnone : v.instrument.assetType = none) :
    b.DiffersFor ledger requests x v v' := by
  have hnone' : v'.instrument.assetType = none := h.instrument ▸ hnone
  obtain ⟨event, hafter⟩ := after_of_skipped h.makes hnone
  obtain ⟨event', hafter'⟩ := after_of_skipped h.makes' hnone'
  have hends : b.endOf v = b.endOf v' := by
    rw [endOf_eq_skipped.mpr hnone, endOf_eq_skipped.mpr hnone']
  refine ⟨h.instrument, ?_, fun _ => ?_, fun _ => hends, h.counted⟩
  · rw [hafter, hafter']
    exact h.before
  · rw [hafter, hafter']
    exact ⟨[], by simp, by simp⟩

omit apart in
/-- Visits to any other instrument have transactions, which agree where the calls behave alike. -/
theorem Pair.differsFor_processed (records : b.Records requests) (h : b.Pair ledger x v v')
    (hsome : v.instrument.assetType ≠ none)
    (halike : b.BehavesAlike ledger v.instrument v.before v'.before) :
    b.DiffersFor ledger requests x v v' := by
  have hsome' : v'.instrument.assetType ≠ none := h.instrument ▸ hsome
  have hagree := agree_process laws records halike v.job v.start v.last
  rcases hrun : (b.process v.job v.instrument v.start v.last).exec v.before with ⟨result, t⟩
  rcases hrun' : (b.process v.job v.instrument v.start v.last).exec v'.before with ⟨result', t'⟩
  have hprocess' : (b.process v'.job v'.instrument v'.start v'.last).exec v'.before =
      (result', t') := by
    rw [← h.job, ← h.instrument, ← h.start, ← h.last, hrun']
  have hends : result = result' → b.endOf v = b.endOf v' := by
    rintro rfl
    rw [endOf_eq_ofResult hsome hrun, endOf_eq_ofResult hsome' hprocess']
  have hworld := (after_of_processed h.makes hsome hrun).2
  have hworld' := (after_of_processed h.makes' hsome' hprocess').2
  rw [hrun, hrun'] at hagree
  cases hagree with
  | ok hasked =>
      obtain ⟨ids, rows, hkept, hkept'⟩ := committed_agree laws records halike hrun hrun'
      refine ⟨h.instrument, ?_, fun _ => ?_, fun _ => hends rfl, h.counted⟩
      · rw [hworld, hworld']
        exact Ledger.without_congr h.before hkept hkept'
      · rw [hworld, hworld']
        exact hasked
  | error hasked =>
      refine ⟨h.instrument, ?_, fun _ => ?_, fun _ => hends rfl, h.counted⟩
      · rw [hworld, hworld', Ledger.without_eq_of_committed (process_error laws hrun), h.before,
          Ledger.without_eq_of_committed (process_error laws hprocess')]
      · rw [hworld, hworld']
        exact hasked

/-- Two visits to an instrument for which everything behaves the same, and to `x` in any case, differ
at most for `x`. -/
theorem Pair.differsFor (records : b.Records requests) (h : b.Pair ledger x v v')
    (hkey : v.instrument.id = x.id → v.instrument.key? = x.key?)
    (halike : b.AlikeBesides ledger x v v') : b.DiffersFor ledger requests x v v' := by
  by_cases hid : v.instrument.id = x.id
  · exact h.differsFor_own laws apart hid (hkey hid)
  by_cases hnone : v.instrument.assetType = none
  · exact h.differsFor_skipped hnone
  · exact h.differsFor_processed laws records hnone (halike h.instrument hid h.before)

/-! ### A page -/

/-- The visits to the same page, side by side. -/
theorem differsFor_visitsTo (records : b.Records requests) (job : Job) (start last : Date)
    (hkey : ∀ i ∈ page, i.id = x.id → i.key? = x.key?)
    (hsame : (ledger s.world).without x = (ledger s'.world).without x)
    (halike : ∀ v ∈ b.visitsTo job start last o s page,
      ∀ v' ∈ b.visitsTo job start last o' s' page, b.AlikeBesides ledger x v v') :
    List.Forall₂ (b.DiffersFor ledger requests x) (b.visitsTo job start last o s page)
        (b.visitsTo job start last o' s' page) ∧
      (ledger (Act.exec (b.visitAll job start last o page) s).2.world).without x =
        (ledger (Act.exec (b.visitAll job start last o' page) s').2.world).without x := by
  induction page generalizing o o' s s' with
  | nil => exact ⟨.nil, hsame⟩
  | cons i rest ih =>
      let r := Act.exec (b.visit job start last o i) s
      let r' := Act.exec (b.visit job start last o' i) s'
      have hpair : b.Pair ledger x ⟨job, start, last, i, s, o, r.2, r.1⟩
          ⟨job, start, last, i, s', o', r'.2, r'.1⟩ := ⟨rfl, rfl, rfl, rfl, rfl, rfl, hsame⟩
      have hfirst : b.DiffersFor ledger requests x _ _ :=
        hpair.differsFor laws apart records (hkey i List.mem_cons_self)
          (halike _ List.mem_cons_self _ List.mem_cons_self)
      obtain ⟨hrest, hend⟩ := @ih r.1 r'.1 r.2 r'.2
        (fun j hj => hkey j (List.mem_cons_of_mem _ hj)) hfirst.after fun v hv v' hv' =>
          halike v (List.mem_cons_of_mem _ hv) v' (List.mem_cons_of_mem _ hv')
      exact ⟨.cons hfirst hrest, hend⟩

end Visit

/-! ### A run -/

section Run

variable (laws : b.Transactional ledger) (watches : b.Watches ledger)

include laws watches

omit watches in
theorem without_loadPage {answer : Except CollectError (List Instrument)}
    (h : (b.loadPage job after).exec s = (answer, s')) :
    (ledger s'.world).without x = (ledger s.world).without x := by
  have hkept := committed_loadPage laws job after s
  rw [h] at hkept
  exact Ledger.without_eq_of_committed hkept

/-- Two worlds at the same cursor of two runs: the ledgers are the same without `x`, and so is what is
still due, where `x` is known by its key if it is there at all. -/
structure SideBySide (ledger : σ → Ledger) (x : Instrument) (job : Job) (after : Option Int)
    (w w' : σ) : Prop where
  nodup : ((ledger w).instruments.map (·.id)).Nodup
  nodup' : ((ledger w').instruments.map (·.id)).Nodup
  same : (ledger w).without x = (ledger w').without x
  due_eq : Ledger.due (ledger w).instruments job.visitsCompleted after =
    Ledger.due (ledger w').instruments job.visitsCompleted after
  key_eq : ∀ i ∈ Ledger.due (ledger w).instruments job.visitsCompleted after,
    i.id = x.id → i.key? = x.key?

/-- Side by side the same page is loaded. -/
theorem page_congr {page' : List Instrument} (h : SideBySide ledger x job after s.world s'.world)
    (hload : (b.loadPage job after).exec s = (.ok page, t))
    (hload' : (b.loadPage job after).exec s' = (.ok page', t')) : page = page' := by
  rw [page_eq_of_loadPage laws watches h.nodup hload,
    page_eq_of_loadPage laws watches h.nodup' hload', h.due_eq]

/-- A page that is loaded side by side is visited side by side. -/
theorem differsFor_page (apart : b.SavesApart ledger) (records : b.Records requests)
    (start last : Date) (h : SideBySide ledger x job after s.world s'.world)
    (hload : (b.loadPage job after).exec s = (.ok page, t))
    (hload' : (b.loadPage job after).exec s' = (.ok page, t'))
    (halike : ∀ v ∈ b.visitsTo job start last o t page,
      ∀ v' ∈ b.visitsTo job start last o' t' page, b.AlikeBesides ledger x v v') :
    List.Forall₂ (b.DiffersFor ledger requests x) (b.visitsTo job start last o t page)
        (b.visitsTo job start last o' t' page) ∧
      (ledger (Act.exec (b.visitAll job start last o page) t).2.world).without x =
        (ledger (Act.exec (b.visitAll job start last o' page) t').2.world).without x := by
  refine differsFor_visitsTo laws apart records job start last (fun i hi => h.key_eq i ?_) ?_ halike
  · rw [page_eq_of_loadPage laws watches h.nodup hload] at hi
    exact List.mem_of_mem_take hi
  · rw [without_loadPage laws hload, without_loadPage laws hload', h.same]

/-- Two runs from the same cursor, side by side. -/
theorem Paging.differsFor (apart : b.SavesApart ledger) (records : b.Records requests)
    (h : b.Paging job start last fuel after o s turns r t)
    (h' : b.Paging job start last fuel after o' s' turns' r' t')
    (hside : SideBySide ledger x job after s.world s'.world)
    (behave : b.BehaveBesides ledger x turns turns') :
    List.Forall₂ (b.DiffersFor ledger requests x) (Turn.allVisits turns) (Turn.allVisits turns') ∧
      (ledger t.world).without x = (ledger t'.world).without x ∧
      ∀ e, r = .error e ↔ r' = .error e := by
  -- On the first run; the second can only be in the same case, for it has the same page, or fails
  -- for the same reason.
  induction h generalizing o' s' turns' r' t' with
  | limit =>
      cases h'
      exact ⟨.nil, hside.same, by simp⟩
  | failed hload =>
      have hfails (t') (ht' : t' ∈ turns') := behave.pages _ List.mem_cons_self t' ht'
      cases h' with
      | failed hload' =>
          obtain ⟨⟩ := (hfails _ List.mem_cons_self rfl hside.same _).mp rfl
          refine ⟨.nil, ?_, fun e => Iff.rfl⟩
          rw [without_loadPage laws hload, without_loadPage laws hload', hside.same]
      | last => cases (hfails _ List.mem_cons_self rfl hside.same _).mp rfl
      | next => cases (hfails _ List.mem_cons_self rfl hside.same _).mp rfl
  | last hload hend hvisits =>
      have hfails (t') (ht' : t' ∈ turns') := behave.pages _ List.mem_cons_self t' ht'
      cases h' with
      | failed => cases (hfails _ List.mem_cons_self rfl hside.same _).mpr rfl
      | last hload' hend' hvisits' =>
          obtain rfl := page_congr laws watches hside hload hload'
          have hpage :=
            differsFor_page laws watches apart records start last hside hload hload' behave.head
          rw [hvisits, hvisits'] at hpage
          exact ⟨by simpa using hpage.1, hpage.2, by simp⟩
      | next hload' hlast' hfull' =>
          obtain rfl := page_congr laws watches hside hload hload'
          exact absurd hend (not_end_of_full hlast' hfull')
  | next hload hlast hfull hvisits _ ih =>
      have hfails (t') (ht' : t' ∈ turns') := behave.pages _ List.mem_cons_self t' ht'
      cases h' with
      | failed => cases (hfails _ List.mem_cons_self rfl hside.same _).mpr rfl
      | last hload' hend' =>
          obtain rfl := page_congr laws watches hside hload hload'
          exact absurd hend' (not_end_of_full hlast hfull)
      | next hload' hlast' hfull' hvisits' hrest' =>
          obtain rfl := page_congr laws watches hside hload hload'
          obtain rfl := Option.some.inj (hlast.symm.trans hlast')
          have hpage :=
            differsFor_page laws watches apart records start last hside hload hload' behave.head
          rw [hvisits, hvisits'] at hpage
          obtain ⟨hnodup, hdue⟩ :=
            due_of_turn laws watches start last _ hside.nodup hload hlast hvisits
          obtain ⟨hnodup', hdue'⟩ :=
            due_of_turn laws watches start last _ hside.nodup' hload' hlast hvisits'
          -- The page is the front of what both had still to come, so the same is left to both.
          obtain ⟨hvisited, hend, herror⟩ := ih hrest'
            ⟨hnodup, hnodup', hpage.2,
              List.append_cancel_left (hdue.symm.trans (hside.due_eq.trans hdue')),
              fun i hi => hside.key_eq i (hdue ▸ List.mem_append_right _ hi)⟩ behave.tail
          exact ⟨List.rel_append hpage.1 hvisited, hend, herror⟩

end Run

theorem map_instrument_of_differsFor {visits visits' : List (Visit σ)}
    (h : List.Forall₂ (b.DiffersFor ledger requests x) visits visits') :
    visits.map (·.instrument) = visits'.map (·.instrument) := by
  induction h with
  | nil => rfl
  | cons hfirst _ ih => rw [List.map_cons, List.map_cons, hfirst.instrument, ih]

/-- **Failures stay with their instrument.** Take two runs of a job from the same committed state,
with distinct keys on the watchlist, in which the broker and the store behave the same for every
instrument but `x`, for which any call may come to anything. The runs visit the same instruments in
the same order. For every instrument but `x` they ask the broker the same questions, end the visit
alike, and leave the same flag and the same rows. One run fails exactly if the other does, and with the
same error. -/
theorem run_isolates (laws : b.Transactional ledger) (watches : b.Watches ledger)
    (apart : b.SavesApart ledger) (records : b.Records requests) (job : Job) (start last : Date)
    (s s' : Session σ) (hstart : (ledger s.world).committed = (ledger s'.world).committed)
    (nodup : ((ledger s.world).instruments.map (·.id)).Nodup)
    (keys : ∀ i ∈ (ledger s.world).instruments, ∀ j ∈ (ledger s.world).instruments,
      ∀ key, i.key? = some key → j.key? = some key → i = j)
    (hx : x ∈ (ledger s.world).instruments) :
    (∃ turns, b.Traces job start last s turns) ∧ (∃ turns', b.Traces job start last s' turns') ∧
    ∀ turns turns', b.Traces job start last s turns → b.Traces job start last s' turns' →
      b.BehaveBesides ledger x turns turns' →
      Turn.visited turns = Turn.visited turns' ∧
      List.Forall₂ (b.DiffersFor ledger requests x) (Turn.allVisits turns)
        (Turn.allVisits turns') ∧
      (∀ i ∈ (ledger s.world).instruments, i.id ≠ x.id →
        (ledger ((b.run job start last).exec s).2.world).entryOf i =
          (ledger ((b.run job start last).exec s').2.world).entryOf i) ∧
      ∀ e, ((b.run job start last).exec s).1 = .error e ↔
        ((b.run job start last).exec s').1 = .error e := by
  refine ⟨exists_traces b job start last s, exists_traces b job start last s', ?_⟩
  intro turns turns' htraces htraces' behave
  obtain ⟨s₀, r, s₁, hworld, hpaging, ⟨elapsed, hresult⟩, hend⟩ := htraces
  obtain ⟨s₀', r', s₁', hworld', hpaging', ⟨elapsed', hresult'⟩, hend'⟩ := htraces'
  have hinstruments : (ledger s.world).instruments = (ledger s'.world).instruments :=
    congrArg Prod.fst hstart
  have hside : SideBySide ledger x job none s.world s'.world := by
    refine ⟨nodup, hinstruments ▸ nodup, Ledger.without_eq_of_committed hstart, ?_, ?_⟩
    · rw [hinstruments]
    · -- An instrument with the id of `x` is `x`, as long as no flag was set.
      intro i hi hid
      rw [List.inj_on_of_nodup_map nodup (Ledger.mem_due.mp hi).1 hx hid]
  rw [← hworld, ← hworld'] at hside
  obtain ⟨hvisits, hsame, herror⟩ :=
    hpaging.differsFor laws watches apart records hpaging' hside behave
  refine ⟨map_instrument_of_differsFor hvisits, hvisits, fun i hi hid => ?_, fun e => ?_⟩
  · rw [hend, hend']
    refine Ledger.entryOf_congr hsame hid fun key hkey hxkey => hid ?_
    rw [keys i hi x hx key hkey hxkey]
  · have error_iff {r : Except CollectError Outcome} {elapsed : Nat} :
        (r.map fun o => { o with elapsed }) = .error e ↔ r = .error e := by
      cases r <;> simp [Except.map]
    rw [hresult, hresult', error_iff, error_iff]
    exact herror e

end Batch

/-! ### Rehearsals with a fault for one instrument -/

namespace RehearsalWorld

variable {x : Instrument} {job : Job} {start last : Date} {s s' : Session RehearsalWorld}
  {turns turns' : List (Turn RehearsalWorld)}

theorem savesApart_batch (strategies : Strategies) (config : BatchConfig) :
    (batch strategies config).SavesApart (RehearsalStore.ledgerOf storePart) := by
  intro key bars
  dsimp only [batch, RehearsalStore.prices]
  refine RehearsalStore.changesBy_callIn (fun _ _ => rfl) fun store l => ?_
  obtain ⟨rows, hinsert, hkeys⟩ := Ledger.exists_insert_eq key bars l
  exact ⟨rows, congrArg Prod.snd hinsert, fun r hr => congrArg some (hkeys r hr)⟩

/-- Rehearsals that are faulty for `x` alone behave the same for every other instrument, as long as no
other one has its code. -/
theorem behaveBesides_batch (strategies : Strategies) (config : BatchConfig)
    (htraces : (batch strategies config).Traces job start last s turns)
    (htraces' : (batch strategies config).Traces job start last s' turns')
    (nodup : (s.world.store.ledger.instruments.map (·.id)).Nodup)
    (codes : ∀ i ∈ s.world.store.ledger.instruments, i.id ≠ x.id → i.stockCode ≠ x.stockCode)
    (faulty : FaultyFor x s.world s'.world) :
    (batch strategies config).BehaveBesides (RehearsalStore.ledgerOf storePart) x turns turns' := by
  have answered := answered_of_plan rfl (keeps_plan strategies config) faulty.plan htraces
  have answered' := answered_of_plan rfl (keeps_plan strategies config) faulty.plan' htraces'
  obtain ⟨s₀, r, s₁, hworld, hpaging, -⟩ := htraces
  obtain ⟨s₀', r', s₁', hworld', hpaging', -⟩ := htraces'
  refine ⟨fun t ht t' ht' _ _ e => ?_, fun v hv v' hv' _ hid hsame => ?_⟩
  · obtain ⟨page, hok⟩ := answered t ht
    obtain ⟨page', hok'⟩ := answered' t' ht'
    rw [hok, hok']
    simp
  · have hsetUp := (hpaging.moves (setUpAs_batch strategies config)).2.2 v hv
    have hsetUp' := (hpaging'.moves (setUpAs_batch strategies config)).2.2 v' hv'
    rw [hworld] at hsetUp
    rw [hworld'] at hsetUp'
    have hmem : v.instrument ∈ s.world.store.ledger.instruments := by
      have hdue := hpaging.due_of_visited (transactional_batch strategies config)
        (watches_batch strategies config) (hworld ▸ nodup) (List.mem_map_of_mem hv)
      exact hworld ▸ hdue.2.1
    have hcode := codes v.instrument hmem hid
    refine behavesAlike_batch strategies config ((faulty.ofSetUp hsetUp hsetUp').alikeFor hcode ?_)
    refine Ledger.entryOf_congr hsame hid fun key hkey hxkey => hcode ?_
    exact (Instrument.of_key? hkey).2.symm.trans (Instrument.of_key? hxkey).2

end RehearsalWorld

/-- A backfill of three instruments, two a page, with a broker that answers for all of them and with
one that never does for the second. -/
theorem Batch.run_isolates_of_one_fault :
    let instrument (id : Int) (code : String) : Instrument :=
      ⟨id, code, none, none, some .domesticStock, false⟩
    let instruments := [instrument 1 "005930", instrument 2 "000660", instrument 3 "035420"]
    let history := [("005930", [default]), ("000660", [default]), ("035420", [default])]
    let world (faults : List MarketFault) : RehearsalWorld :=
      { store := .ofLedger (.ofInstruments instruments)
        market := ⟨2, .newestFirst, false, history, faults, [], []⟩
        locks := .empty }
    let batch := RehearsalWorld.batch (.full 2) ⟨2, 2, default⟩
    let ledger := RehearsalStore.ledgerOf RehearsalWorld.storePart
    let session (faults : List MarketFault) : Session RehearsalWorld :=
      ⟨world faults, ⟨default, 0⟩, []⟩
    let s := session []
    let s' := session [⟨"000660", 0, .rateLimited⟩]
    ∃ turns turns', batch.Traces .backfill default default s turns ∧
      batch.Traces .backfill default default s' turns' ∧
      Turn.visited turns = Turn.visited turns' ∧
      List.Forall₂ (batch.DiffersFor ledger RehearsalWorld.requestsOf (instrument 2 "000660"))
        (Turn.allVisits turns) (Turn.allVisits turns') ∧
      (∀ i ∈ instruments, i.id ≠ 2 →
        (ledger ((batch.run .backfill default default).exec s).2.world).entryOf i =
          (ledger ((batch.run .backfill default default).exec s').2.world).entryOf i) ∧
      ∀ e, ((batch.run .backfill default default).exec s).1 = .error e ↔
        ((batch.run .backfill default default).exec s').1 = .error e := by
  intro instrument instruments history world batch ledger session s s'
  have laws : batch.Transactional ledger := RehearsalWorld.transactional_batch _ _
  have watches : batch.Watches ledger := RehearsalWorld.watches_batch _ _
  have apart : batch.SavesApart ledger := RehearsalWorld.savesApart_batch _ _
  have records : batch.Records RehearsalWorld.requestsOf := RehearsalWorld.records_batch _ _
  have nodup : (instruments.map (·.id)).Nodup := by decide
  have codes : ∀ i ∈ instruments, i.id ≠ 2 → i.stockCode ≠ "000660" := by decide
  have distinct : ∀ i ∈ instruments, ∀ j ∈ instruments, i.stockCode = j.stockCode → i = j := by decide
  have keys : ∀ i ∈ instruments, ∀ j ∈ instruments, ∀ key,
      i.key? = some key → j.key? = some key → i = j := fun i hi j hj key hkey hkey' =>
    distinct i hi j hj ((Instrument.of_key? hkey).2.symm.trans (Instrument.of_key? hkey').2)
  obtain ⟨⟨turns, htraces⟩, ⟨turns', htraces'⟩, hruns⟩ := run_isolates laws watches apart records
    .backfill default default s s' rfl nodup keys
    (show instrument 2 "000660" ∈ instruments by decide)
  have faulty : RehearsalWorld.FaultyFor (instrument 2 "000660") s.world s'.world := by
    refine ⟨fun _ _ => rfl, fun _ _ => rfl, rfl, fun _ => rfl, (fun f hf => nomatch hf), ?_⟩
    intro f hf
    rw [List.mem_singleton.mp hf]
  have behave : batch.BehaveBesides ledger (instrument 2 "000660") turns turns' :=
    RehearsalWorld.behaveBesides_batch _ _ htraces htraces' nodup codes faulty
  exact ⟨turns, turns', htraces, htraces', hruns turns turns' htraces htraces' behave⟩

end DailyBars
