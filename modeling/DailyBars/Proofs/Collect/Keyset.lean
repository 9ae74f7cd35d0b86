import DailyBars.Proofs.Collect.Moves
import DailyBars.Proofs.Rehearsal.Moves
import DailyBars.Proofs.Storage.Watchlist

/-!
# A run visits every instrument once

A run asks for the instruments after the last id that it has seen. What is still to come is therefore
what is due after the cursor, and each turn takes a page off the front of it. Flags that are set
meanwhile, by the run itself or by anybody else, can take an instrument out of a later page or put it
into one; they neither bring back an instrument up to the cursor nor hide one whose own flag stays as
it is. Ids are integers of 64 bits and the cursor only goes up, so the pages that a run is allowed are
more than it can need.
-/

namespace DailyBars

variable {σ : Type} {ledger : σ → Ledger}

/-- The instruments that were visited, in the order of the visits. -/
def Turn.visited (turns : List (Turn σ)) : List Instrument :=
  (Turn.allVisits turns).map (·.instrument)

@[simp] theorem Turn.visited_nil : Turn.visited ([] : List (Turn σ)) = [] := rfl

@[simp] theorem Turn.visited_cons (t : Turn σ) (turns : List (Turn σ)) :
    Turn.visited (t :: turns) = t.visits.map (·.instrument) ++ Turn.visited turns := by
  simp [visited]

/-- A batch on a watchlist in which flags are only ever set. Whoever sets them, a page that was loaded
holds the first instruments that were due at some moment of the question. -/
structure Batch.Watches (b : Batch σ) (ledger : σ → Ledger) : Prop where
  moves : b.Moves fun w w' => Ledger.Completes (ledger w).instruments (ledger w').instruments
  findPage : ∀ completed after limit s page s',
    (b.watchlist.findPage completed after limit).exec s = (.ok page, s') →
    ∃ now, Ledger.Completes (ledger s.world).instruments now ∧
      Ledger.Completes now (ledger s'.world).instruments ∧
      page = (Ledger.due now completed after).take limit

/-- The turns go once through the watchlist, from a cursor to its end. -/
structure Batch.Sweeps (b : Batch σ) (ledger : σ → Ledger) (job : Job) (after : Option Int)
    (turns : List (Turn σ)) : Prop where
  /-- The last page is not full. -/
  ends : ∃ t ∈ turns.getLast?, ∃ page, t.answer = .ok page ∧
    page.length < b.config.instrumentPageSize
  /-- The instruments are visited in strictly ascending order, so none is visited twice. -/
  ascending : (Turn.visited turns).Pairwise (·.id < ·.id)
  /-- All that is visited comes after the cursor and had its flag right. -/
  visited : ∀ i ∈ Turn.visited turns,
    (∀ a ∈ after, a < i.id) ∧ i.backfillCompleted = job.visitsCompleted
  /-- An instrument after the cursor is visited if its flag is right before and after every question
  for a page that it can be on. -/
  complete : ∀ i : Instrument, (∀ a ∈ after, a < i.id) →
    i.backfillCompleted = job.visitsCompleted →
    (∀ t ∈ turns, (∀ a ∈ t.after, a < i.id) →
      i ∈ (ledger t.asked.world).instruments ∧ i ∈ (ledger t.answered.world).instruments) →
    i ∈ Turn.visited turns

namespace Batch

variable {b : Batch σ} {job : Job} {start last : Date} {after : Option Int} {o : Outcome}
  {s s' s₁ : Session σ} {page now : List Instrument} {turns : List (Turn σ)} {fuel : Nat}
  {r : Except CollectError Outcome} {t : Turn σ}

/-- What a batch with transactions does sets flags, and takes none back. -/
theorem Transactional.moves (laws : b.Transactional ledger) :
    b.Moves fun w w' => Ledger.Completes (ledger w).instruments (ledger w').instruments := by
  have unchanged {ε α : Type} {x : Attempt σ ε α} {change : Ledger → Ledger → Prop}
      (hx : x.ChangesBy ledger change) (hchange : ∀ l l', change l l' → l'.committed = l.committed) :
      x.Moves fun w w' => Ledger.Completes (ledger w).instruments (ledger w').instruments := by
    intro s
    have hsame : (ledger (x.exec s).2.world).instruments = (ledger s.world).instruments :=
      congrArg Prod.fst (hx.committed_eq hchange (r := (x.exec s).1) rfl)
    rw [hsame]
    exact Ledger.Completes.refl _
  exact {
    refl := fun w => Ledger.Completes.refl _
    trans := fun h h' => h.trans h'
    findPage := fun completed after limit =>
      unchanged (laws.findPage completed after limit) fun l l' h => h ▸ rfl
    prices := fun endpoint key first last =>
      unchanged (laws.prices endpoint key first last) fun l l' h => h ▸ rfl
    begin := unchanged laws.store.begin fun l l' h => h ▸ rfl
    existingDates := fun key first last =>
      unchanged (laws.store.existingDates key first last) fun l l' h => h ▸ rfl
    saveAll := fun key bars => unchanged (laws.store.saveAll key bars) fun l l' h => h.committed_eq
    markCompleted := fun id => unchanged (laws.store.markCompleted id) fun l l' h => h ▸ rfl
    commit := fun s => by
      rcases hcommit : b.store.commit.exec s with ⟨r, s'⟩
      cases r with
      | ok a =>
          rw [laws.store.commit.ok s a s' hcommit]
          exact Ledger.completes_commit _
      | error e =>
          have hsame : (ledger s'.world).instruments = (ledger s.world).instruments :=
            congrArg Prod.fst (laws.store.commit.error s e s' hcommit)
          rw [hsame]
          exact Ledger.Completes.refl _
    rollback := fun s => by
      have hsame : (ledger (b.store.rollback.exec s).2.world).instruments =
          (ledger s.world).instruments := congrArg Prod.fst (laws.store.rollback s)
      rw [hsame]
      exact Ledger.Completes.refl _ }

/-! ### How many pages are left -/

/-- The number of pages that can still come after a cursor, each with an id at least. -/
def pagesLeft : Option Int → Nat
  | none => pageLimit
  | some a => (2 ^ 63 - a).toNat

/-- A cursor that is an id of the watchlist, or none yet. -/
def CursorIn (ids : List Int) (after : Option Int) : Prop := ∀ a ∈ after, a ∈ ids

theorem pagesLeft_pos {instruments : List Instrument} (listed : Ledger.Listed instruments)
    (hcursor : CursorIn (instruments.map (·.id)) after) : 0 < pagesLeft after := by
  cases after with
  | none => decide
  | some a =>
      obtain ⟨-, hlt⟩ := listed.bounded a (hcursor a rfl)
      simp only [pagesLeft]
      omega

/-- A page takes one of those that are left. -/
theorem pagesLeft_le_of_lt {instruments : List Instrument} {z : Int}
    (listed : Ledger.Listed instruments) (hz : z ∈ instruments.map (·.id))
    (hafter : ∀ a ∈ after, a < z) (hleft : pagesLeft after ≤ fuel + 1) :
    pagesLeft (some z) ≤ fuel := by
  obtain ⟨hge, hlt⟩ := listed.bounded z hz
  cases after with
  | none =>
      have hlimit : pagesLeft none = 2 ^ 64 + 1 := rfl
      simp only [hlimit] at hleft
      simp only [pagesLeft]
      omega
  | some a =>
      have hup : a < z := hafter a rfl
      simp only [pagesLeft] at hleft ⊢
      omega

/-! ### One turn -/

/-- The turn has loaded and visited a page: the first instruments that were due after its cursor at
some moment of the question, when the watchlist was as `now`. -/
structure Shows (b : Batch σ) (ledger : σ → Ledger) (job : Job) (t : Turn σ)
    (now page : List Instrument) : Prop where
  answer : t.answer = .ok page
  visits : t.visits.map (·.instrument) = page
  asked : Ledger.Completes (ledger t.asked.world).instruments now
  answered : Ledger.Completes now (ledger t.answered.world).instruments
  nodup : (now.map (·.id)).Nodup
  page_eq : page = (Ledger.due now job.visitsCompleted t.after).take b.config.instrumentPageSize

namespace Shows

variable {i z : Instrument}

/-- A page that was loaded is shown by its turn. -/
theorem ofLoadPage (watches : b.Watches ledger) (start last : Date) (o : Outcome)
    (nodup : ((ledger s.world).instruments.map (·.id)).Nodup)
    (h : (b.loadPage job after).exec s = (.ok page, s₁)) :
    ∃ now, b.Shows ledger job ⟨after, s, .ok page, s₁, b.visitsTo job start last o s₁ page⟩ now
      page := by
  obtain ⟨now, hasked, hanswered, hpage⟩ := watches.findPage _ _ _ _ _ _ (exec_loadPage_ok.mp h)
  rw [← hasked.map_id] at nodup
  exact ⟨now, rfl, map_instrument_visitsTo .., hasked, hanswered, nodup, hpage⟩

/-- What is on a page was due. -/
theorem mem_due (h : b.Shows ledger job t now page) (hi : i ∈ page) :
    i ∈ now ∧ i.backfillCompleted = job.visitsCompleted ∧ ∀ a ∈ t.after, a < i.id := by
  rw [h.page_eq] at hi
  exact Ledger.mem_due.mp (List.mem_of_mem_take hi)

theorem ascending (h : b.Shows ledger job t now page) : page.Pairwise (·.id < ·.id) := by
  rw [h.page_eq]
  exact (Ledger.pairwise_due h.nodup _ _).sublist (List.take_sublist _ _)

theorem le_last (h : b.Shows ledger job t now page) (hlast : page.getLast? = some z)
    (hi : i ∈ page) : i.id ≤ z.id :=
  Ledger.id_le_of_mem_page h.ascending hlast hi

/-- An instrument that was the same before and after the question was due in it. -/
theorem due_of_stays (h : b.Shows ledger job t now page) (hbeyond : ∀ a ∈ t.after, a < i.id)
    (hflag : i.backfillCompleted = job.visitsCompleted)
    (hasked : i ∈ (ledger t.asked.world).instruments)
    (hanswered : i ∈ (ledger t.answered.world).instruments) :
    i ∈ Ledger.due now job.visitsCompleted t.after :=
  Ledger.mem_due.mpr ⟨h.asked.mem_between h.answered hasked hanswered, hflag, hbeyond⟩

theorem id_mem (h : b.Shows ledger job t now page) (hi : i ∈ page) :
    i.id ∈ (ledger t.asked.world).instruments.map (·.id) := by
  rw [← h.asked.map_id]
  exact List.mem_map_of_mem (h.mem_due hi).1

end Shows

/-- A page that is not full ends the sweep. -/
theorem Sweeps.ofShort (h : b.Shows ledger job t now page)
    (hshort : page.length < b.config.instrumentPageSize) : b.Sweeps ledger job t.after [t] := by
  have hvisited : Turn.visited [t] = page := by simp [h.visits]
  refine ⟨⟨t, rfl, page, h.answer, hshort⟩, ?_, ?_, ?_⟩
  · rw [hvisited]
    exact h.ascending
  · rw [hvisited]
    intro i hi
    obtain ⟨-, hflag, hbeyond⟩ := h.mem_due hi
    exact ⟨hbeyond, hflag⟩
  · rw [hvisited]
    intro i hbeyond hflag hstays
    obtain ⟨hasked, hanswered⟩ := hstays t (List.mem_singleton.mpr rfl) hbeyond
    rw [← Ledger.due_eq_of_length_lt h.page_eq hshort]
    exact h.due_of_stays hbeyond hflag hasked hanswered

/-- A sweep from the last instrument of a page goes on with the one before the page. -/
theorem Sweeps.cons {z : Instrument} (h : b.Shows ledger job t now page)
    (hlast : page.getLast? = some z) (hrest : b.Sweeps ledger job (some z.id) turns) :
    b.Sweeps ledger job t.after (t :: turns) := by
  have hvisited : Turn.visited (t :: turns) = page ++ Turn.visited turns := by simp [h.visits]
  have hgt : ∀ i ∈ Turn.visited turns, z.id < i.id := fun i hi => (hrest.visited i hi).1 z.id rfl
  refine ⟨?_, ?_, ?_, ?_⟩
  · obtain ⟨t', ht, hend⟩ := hrest.ends
    refine ⟨t', ?_, hend⟩
    rw [List.getLast?_cons, Option.mem_def.mp ht]
    rfl
  · rw [hvisited]
    refine List.pairwise_append.mpr ⟨h.ascending, hrest.ascending, fun i hi j hj => ?_⟩
    exact Int.lt_of_le_of_lt (h.le_last hlast hi) (hgt j hj)
  · rw [hvisited]
    intro i hi
    rcases List.mem_append.mp hi with hi | hi
    · obtain ⟨-, hflag, hbeyond⟩ := h.mem_due hi
      exact ⟨hbeyond, hflag⟩
    · obtain ⟨-, -, hzbeyond⟩ := h.mem_due (List.mem_of_getLast? hlast)
      exact ⟨fun a ha => Int.lt_trans (hzbeyond a ha) (hgt i hi), (hrest.visited i hi).2⟩
  · rw [hvisited]
    intro i hbeyond hflag hstays
    by_cases hon : i.id ≤ z.id
    · -- It was due in the question, and what is due after the page comes after its last one.
      obtain ⟨hasked, hanswered⟩ := hstays t List.mem_cons_self hbeyond
      have hdue := h.due_of_stays hbeyond hflag hasked hanswered
      rw [Ledger.due_last h.nodup h.page_eq hlast] at hdue
      refine List.mem_append_left _ ((List.mem_append.mp hdue).resolve_right fun hlater => ?_)
      exact absurd ((Ledger.mem_due.mp hlater).2.2 z.id rfl) (Int.not_lt.mpr hon)
    · refine List.mem_append_right _ (hrest.complete i ?_ hflag fun t' ht => ?_)
      · intro a ha
        cases ha
        exact Int.not_le.mp hon
      · exact hstays t' (List.mem_cons_of_mem _ ht)

/-! ### A turn that nobody disturbs -/

section Undisturbed

variable (laws : b.Transactional ledger)

include laws

theorem instruments_loadPage {answer : Except CollectError (List Instrument)}
    (h : (b.loadPage job after).exec s = (answer, s')) :
    (ledger s'.world).instruments = (ledger s.world).instruments := by
  have hkept := committed_loadPage laws job after s
  rw [h] at hkept
  exact congrArg Prod.fst hkept

/-- Where only the run sets flags, a page shows the watchlist as it was when it was asked for. -/
theorem Shows.undisturbed (h : b.Shows ledger job t now page)
    (hload : (b.loadPage job t.after).exec t.asked = (.ok page, t.answered)) :
    b.Shows ledger job t (ledger t.asked.world).instruments page := by
  have hasked := h.asked
  have hanswered := h.answered
  have nodup : ((ledger t.asked.world).instruments.map (·.id)).Nodup := by
    rw [← hasked.map_id]
    exact h.nodup
  rw [instruments_loadPage laws hload] at hanswered
  refine ⟨h.answer, h.visits, Ledger.Completes.refl _, hasked.trans h.answered, nodup, ?_⟩
  rw [h.page_eq, Ledger.due_congr h.nodup nodup fun i _ => hasked.mem_iff hanswered]

/-- The visits to a page set no flag of an instrument that comes after the page. -/
theorem due_visitAll (job : Job) (start last : Date) (o : Outcome) {z : Instrument}
    (nodup : ((ledger s.world).instruments.map (·.id)).Nodup) (hle : ∀ i ∈ page, i.id ≤ z.id) :
    Ledger.due (ledger (Act.exec (b.visitAll job start last o page) s).2.world).instruments
        job.visitsCompleted (some z.id) =
      Ledger.due (ledger s.world).instruments job.visitsCompleted (some z.id) := by
  obtain ⟨ids, hflagged, hids⟩ := (history_visitsTo ledger b job start last o page s).flagged laws
  rw [hflagged]
  refine Ledger.due_flagged nodup fun id hid => ?_
  obtain ⟨v, hv, -, -, rfl⟩ := hids id hid
  refine hle v.instrument ?_
  rw [← map_instrument_visitsTo b job start last o s page]
  exact List.mem_map_of_mem hv

/-- A page that was loaded holds the first of what was due when it was asked for. -/
theorem page_eq_of_loadPage (watches : b.Watches ledger)
    (nodup : ((ledger s.world).instruments.map (·.id)).Nodup)
    (h : (b.loadPage job after).exec s = (.ok page, s')) :
    page = (Ledger.due (ledger s.world).instruments job.visitsCompleted after).take
      b.config.instrumentPageSize := by
  obtain ⟨now, hshows⟩ := Shows.ofLoadPage watches default default {} nodup h
  exact (hshows.undisturbed laws h).page_eq

/-- A turn with a full page leaves what is due after the page. -/
theorem due_of_turn {z : Instrument} {o' : Outcome} (watches : b.Watches ledger)
    (start last : Date) (o : Outcome)
    (nodup : ((ledger s.world).instruments.map (·.id)).Nodup)
    (hload : (b.loadPage job after).exec s = (.ok page, s₁)) (hlast : page.getLast? = some z)
    (hvisits : Act.exec (b.visitAll job start last o page) s₁ = (o', s')) :
    ((ledger s'.world).instruments.map (·.id)).Nodup ∧
      Ledger.due (ledger s.world).instruments job.visitsCompleted after =
        page ++ Ledger.due (ledger s'.world).instruments job.visitsCompleted (some z.id) := by
  obtain ⟨now, hshows⟩ := Shows.ofLoadPage watches start last o nodup hload
  have hkept := instruments_loadPage laws hload
  have hmoved := ((laws.moves.visitAll job start last o page s₁).1).map_id
  have hpassed := due_visitAll laws job start last o (hkept ▸ nodup)
    fun i hi => hshows.le_last hlast hi
  rw [hvisits, hkept] at hmoved hpassed
  refine ⟨hmoved ▸ nodup, ?_⟩
  rw [hpassed]
  exact Ledger.due_last nodup (hshows.undisturbed laws hload).page_eq hlast

/-- The flags that the visits to a page set are those of a backfill; where they are set, they are no
longer right. So what has its flag right after the visits had it right before them. -/
theorem mem_of_mem_visitAll {o' : Outcome} {i : Instrument}
    (hvisits : Act.exec (b.visitAll job start last o page) s = (o', s'))
    (hi : i ∈ (ledger s'.world).instruments) (hflag : i.backfillCompleted = job.visitsCompleted) :
    i ∈ (ledger s.world).instruments := by
  obtain ⟨ids, hflagged, hids⟩ := (history_visitsTo ledger b job start last o page s).flagged laws
  rw [hvisits] at hflagged
  rw [hflagged] at hi
  cases job with
  | backfill => exact Ledger.mem_of_mem_flagged hi hflag
  | collection =>
      refine (Ledger.mem_flagged_of_not_mem fun hid => ?_).mp hi
      obtain ⟨v, hv, hjob, -⟩ := hids i.id hid
      rw [(job_of_mem_visitsTo hv).1] at hjob
      cases hjob

/-- Whatever is visited, however the run ends, was due when it started. -/
theorem Paging.due_of_visited (watches : b.Watches ledger)
    (h : b.Paging job start last fuel after o s turns r s')
    (nodup : ((ledger s.world).instruments.map (·.id)).Nodup) {i : Instrument}
    (hi : i ∈ Turn.visited turns) :
    1 ≤ b.config.instrumentPageSize ∧ i ∈ (ledger s.world).instruments ∧
      i.backfillCompleted = job.visitsCompleted := by
  have of_page {after : Option Int} {s s₁ : Session σ} {page : List Instrument}
      (nodup : ((ledger s.world).instruments.map (·.id)).Nodup)
      (hload : (b.loadPage job after).exec s = (.ok page, s₁)) (hi : i ∈ page) :
      1 ≤ b.config.instrumentPageSize ∧ i ∈ (ledger s.world).instruments ∧
        i.backfillCompleted = job.visitsCompleted := by
    rw [page_eq_of_loadPage laws watches nodup hload] at hi
    obtain ⟨hmem, hflag, -⟩ := Ledger.mem_due.mp (List.mem_of_mem_take hi)
    refine ⟨Nat.one_le_iff_ne_zero.mpr fun hzero => ?_, hmem, hflag⟩
    rw [hzero, List.take_zero] at hi
    cases hi
  induction h with
  | limit => cases hi
  | failed => cases hi
  | last hload _ _ => exact of_page nodup hload (by simpa using hi)
  | next hload hlast hfull hvisits _ ih =>
      rw [Turn.visited_cons, map_instrument_visitsTo] at hi
      rcases List.mem_append.mp hi with hi | hi
      · exact of_page nodup hload hi
      · obtain ⟨hnodup, -⟩ := due_of_turn laws watches start last _ nodup hload hlast hvisits
        obtain ⟨hsize, hmem, hflag⟩ := ih hnodup hi
        refine ⟨hsize, ?_, hflag⟩
        rw [← instruments_loadPage laws hload]
        exact mem_of_mem_visitAll laws hvisits hmem hflag

end Undisturbed

/-! ### A run -/

/-- A page that ends the loop is not full. -/
theorem length_lt_of_end (hsize : 1 ≤ b.config.instrumentPageSize)
    (hend : page = [] ∨ page.length < b.config.instrumentPageSize) :
    page.length < b.config.instrumentPageSize := by
  rcases hend with rfl | hshort
  · exact hsize
  · exact hshort

/-- As long as the watchlist answers, which nothing in a run puts to an end, every question of the run
is answered. -/
theorem Paging.answered {inv : σ → Prop} (keeps : b.Moves fun w w' => inv w → inv w')
    (answers : ∀ completed after limit s, inv s.world →
      ∃ page s', (b.watchlist.findPage completed after limit).exec s = (.ok page, s'))
    (h : b.Paging job start last fuel after o s turns r s') (hinv : inv s.world) :
    ∀ t ∈ turns, ∃ page, t.answer = .ok page := by
  intro t ht
  obtain ⟨page, t', hpage⟩ := answers job.visitsCompleted t.after b.config.instrumentPageSize t.asked
    ((h.moves keeps).2.1 t ht hinv)
  refine ⟨page, ?_⟩
  have hload := exec_loadPage_ok.mpr hpage
  rw [h.asks ht] at hload
  exact congrArg Prod.fst hload

/-- A run whose questions are all answered goes once through the watchlist, and does not run out of
pages. If it alone sets flags, it visits what was due when it started. -/
theorem Paging.sweeps (watches : b.Watches ledger) (hsize : 1 ≤ b.config.instrumentPageSize)
    (h : b.Paging job start last fuel after o s turns r s')
    (listed : Ledger.Listed (ledger s.world).instruments)
    (hcursor : CursorIn ((ledger s.world).instruments.map (·.id)) after)
    (hleft : pagesLeft after ≤ fuel) (answered : ∀ t ∈ turns, ∃ page, t.answer = .ok page) :
    (∃ o', r = .ok o') ∧ b.Sweeps ledger job after turns ∧
      (∀ i ∈ Turn.visited turns, i.id ∈ (ledger s.world).instruments.map (·.id)) ∧
      (b.Transactional ledger →
        Turn.visited turns = Ledger.due (ledger s.world).instruments job.visitsCompleted after) := by
  induction h with
  | limit => exact absurd (pagesLeft_pos listed hcursor) (Nat.not_lt.mpr hleft)
  | failed =>
      obtain ⟨page, hpage⟩ := answered _ (List.mem_singleton.mpr rfl)
      cases hpage
  | @last fuel after o o' s s₁ s' page hload hend hvisits =>
      -- A page that ends the loop is not full, so it holds all that is due.
      obtain ⟨now, hshows⟩ := Shows.ofLoadPage watches start last o listed.nodup hload
      have hshort := length_lt_of_end hsize hend
      have hvisited : Turn.visited [⟨after, s, .ok page, s₁, b.visitsTo job start last o s₁ page⟩] =
          page := by simp
      rw [hvisited]
      refine ⟨⟨o', rfl⟩, Sweeps.ofShort hshows hshort, fun i hi => hshows.id_mem hi, fun laws => ?_⟩
      have hpage := page_eq_of_loadPage laws watches listed.nodup hload
      exact (Ledger.due_eq_of_length_lt hpage hshort).symm
  | @next fuel after o o₁ s s₁ s₂ s' page z turns r hload hlast hfull hvisits _ ih =>
      obtain ⟨now, hshows⟩ := Shows.ofLoadPage watches start last o listed.nodup hload
      have hmoved : Ledger.Completes (ledger s.world).instruments (ledger s₂.world).instruments := by
        have hall := (watches.moves.visitAll job start last o page s₁).1
        rw [hvisits] at hall
        exact hshows.asked.trans (hshows.answered.trans hall)
      have hz := hshows.id_mem (List.mem_of_getLast? hlast)
      obtain ⟨-, -, hzbeyond⟩ := hshows.mem_due (List.mem_of_getLast? hlast)
      have hvisited : Turn.visited
          (⟨after, s, .ok page, s₁, b.visitsTo job start last o s₁ page⟩ :: turns) =
          page ++ Turn.visited turns := by simp
      rw [hvisited]
      -- The rest of the run starts at the last id of the page, with one page less to go.
      obtain ⟨hok, hrest, hids, hdue⟩ := ih (listed.completes hmoved)
        (fun a ha => by cases ha; rw [hmoved.map_id]; exact hz)
        (pagesLeft_le_of_lt listed hz hzbeyond hleft)
        (fun t ht => answered t (List.mem_cons_of_mem _ ht))
      refine ⟨hok, Sweeps.cons hshows hlast hrest, fun i hi => ?_, fun laws => ?_⟩
      · rcases List.mem_append.mp hi with hi | hi
        · exact hshows.id_mem hi
        · rw [← hmoved.map_id]
          exact hids i hi
      · rw [hdue laws]
        exact (due_of_turn laws watches start last o listed.nodup hload hlast hvisits).2.symm

end Batch

/-! ### Beside another process -/

namespace RehearsalWorld

theorem watches_batch (strategies : Strategies) (config : BatchConfig) :
    (batch strategies config).Watches (RehearsalStore.ledgerOf storePart) where
  moves := (transactional_batch strategies config).moves
  findPage completed after limit s page s' h := by
    have hledger := (RehearsalStore.actsOn_findPage (p := storePart) (fun _ _ => rfl) completed after
      limit).ok s page s' h
    refine ⟨_, Ledger.Completes.refl _, ?_,
      (RehearsalStore.findPage_ok (fun _ _ => rfl) h).trans (Ledger.findPage_eq_take ..)⟩
    rw [hledger]
    exact Ledger.Completes.refl _

/-- A run without failures in the plan has all its questions answered. -/
theorem answered_of_plan {b : Batch RehearsalWorld} {job : Job} {start last : Date}
    {s : Session RehearsalWorld} {turns : List (Turn RehearsalWorld)}
    (hwatchlist : b.watchlist = RehearsalStore.watchlist storePart)
    (keeps : b.Moves fun w w' => (∀ n c, w.store.plan n c = none) → ∀ n c, w'.store.plan n c = none)
    (hplan : ∀ n c, s.world.store.plan n c = none) (htraces : b.Traces job start last s turns) :
    ∀ t ∈ turns, ∃ page, t.answer = .ok page := by
  obtain ⟨s₀, r, s₁, hworld, hpaging, -⟩ := htraces
  refine hpaging.answered keeps (fun completed after limit s hplan => ?_) (hworld ▸ hplan)
  rw [hwatchlist]
  exact RehearsalStore.exists_findPage (fun _ _ => rfl) hplan completed after limit

end RehearsalWorld

end DailyBars
