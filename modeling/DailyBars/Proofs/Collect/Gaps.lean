import DailyBars.Proofs.Collect.Recovery
import DailyBars.Proofs.Rehearsal.Market

/-!
# Days that collections miss

A collection asks for the prices of its own day. So a day gets its bar from the collection of that
day, or from a later one at the address that answers backwards without a first day, and from no other:
at the other addresses no collection makes up for one that failed on the days before.
-/

namespace DailyBars

variable {σ : Type} {ledger : σ → Ledger} {inv : σ → Prop}

/-! ### The days asked for -/

namespace Endpoint

/-- A request for the days from the first to the last asks for the day. At the address of overseas
stocks it asks for all the days up to the last. -/
def AsksFor (e : Endpoint) (first last day : Date) : Prop :=
  day ≤ last ∧ (e = overseasStock ∨ first ≤ day)

/-- A request for one day asks for no other, or for those before it as well. -/
theorem asksFor_one_day {e : Endpoint} {asked day : Date} :
    e.AsksFor asked asked day ↔ day = asked ∨ e = overseasStock ∧ day < asked := by
  constructor
  · rintro ⟨hlast, hfirst⟩
    by_cases hlt : day < asked
    · have hbackwards := hfirst.resolve_right fun hle => Date.not_le.mpr hlt hle
      exact .inr ⟨hbackwards, hlt⟩
    · exact .inl (Date.le_antisymm hlast (Date.not_lt.mp hlt))
  · rintro (rfl | ⟨he, hlt⟩)
    · exact ⟨Date.le_refl _, .inr (Date.le_refl _)⟩
    · exact ⟨Date.le_of_lt hlt, .inl he⟩

end Endpoint

/-- The strategy for an asset type is one of that type. -/
theorem Strategies.assetType_of_find {r : Strategies} {t : AssetType} {strategy : Strategy}
    (h : r.find (some t) = .ok strategy) : strategy.assetType = t := by
  unfold find at h
  dsimp only at h
  split at h
  · rename_i found hfound
    cases h
    simpa using List.find?_some hfound
  · cases h

/-- The visit failed because the broker did. -/
def Visit.FailedRecoverably (v : Visit σ) : Prop :=
  v.outcomeAfter = v.outcomeBefore.addFailure .recoverable

/-! ### What one run stores -/

namespace Batch

variable {b : Batch σ} {answers : PriceAnswers} {job : Job} {start last day : Date}
  {key : InstrumentKey} {s : Session σ} {turns : List (Turn σ)} {v : Visit σ}

/-- A visit is counted as a success exactly if its transaction was kept. -/
theorem succeeded_iff_saved (h : b.Makes v) : v.Succeeded ↔ ∃ saved, b.endOf v = .saved saved := by
  have hcount := outcomeAfter_eq_count h
  constructor
  · intro hsuccess
    have hkept := Visit.not_failedOrSkipped hsuccess
    cases hend : b.endOf v with
    | saved n => exact ⟨n, rfl⟩
    | skipped =>
        rw [hend] at hcount
        exact absurd (.inl hcount) hkept
    | failed e =>
        rw [hend] at hcount
        exact absurd (.inr ⟨_, hcount⟩) hkept
  · rintro ⟨n, hend⟩
    rw [hend] at hcount
    exact ⟨n, hcount⟩

/-- A batch that has kept a visit has a strategy for it. -/
theorem find_of_succeeded (h : b.Makes v) (hsuccess : v.Succeeded)
    (hkey : v.instrument.key? = some key) :
    ∃ strategy, b.strategies.find (some key.assetType) = .ok strategy := by
  obtain ⟨saved, hend⟩ := (succeeded_iff_saved h).mp hsuccess
  obtain ⟨t, hrun⟩ := exec_process_of_endOf (r := .ok saved) hend
  obtain ⟨strategy, -, -, hfind, -⟩ := exec_process_ok.mp hrun
  rw [(Instrument.of_key? hkey).1] at hfind
  exact ⟨strategy, hfind⟩

/-- A collection comes by the one page that it asks for. -/
theorem barsOf_collection {strategy : Strategy}
    (hfind : b.strategies.find (some key.assetType) = .ok strategy) :
    b.barsOf answers .collection start last key =
      answers (.ofAssetType key.assetType) key start last := by
  have htype := Strategies.assetType_of_find hfind
  rw [barsOf, hfind]
  dsimp only
  rw [barsFrom, htype]
  rfl

/-- **What a run stores.** After a run a day has a row exactly if it had one before, or if a visit to
an instrument with the key succeeded and the broker's answers had a bar for the day. -/
theorem hasBar_run (laws : b.Faithful ledger answers inv) (hinv : inv s.world)
    (nodup : ((ledger s.world).instruments.map (·.id)).Nodup)
    (htraces : b.Traces job start last s turns) :
    HasBar (ledger ((b.run job start last).exec s).2.world).rows key day ↔
      HasBar (ledger s.world).rows key day ∨
      (∃ v ∈ Turn.allVisits turns, v.instrument.key? = some key ∧ v.Succeeded) ∧
        ∃ c ∈ b.barsOf answers job start last key, c.tradeDate = day := by
  obtain ⟨s₀, r, s₁, hworld₀, hpaging, -, hworld₁⟩ := htraces
  rw [hworld₁, ← hworld₀]
  rw [← hworld₀] at hinv nodup
  have hvisits := reaches_of_visited laws hpaging nodup (CaughtUp.refl _) hinv
  obtain ⟨done, hdone, hmem, -⟩ :=
    (CaughtUp.refl (ledger s₀.world) : b.CaughtUp answers job start last _ _ []).history laws
      (hpaging.history laws.transactional) hvisits
  have hcollected : (∃ i ∈ done, i.key? = some key) ↔
      ∃ v ∈ Turn.allVisits turns, v.instrument.key? = some key ∧ v.Succeeded := by
    constructor
    · rintro ⟨i, hi, hkey⟩
      obtain ⟨v, hv, rfl, hsaved⟩ := ((hmem i).mp hi).resolve_left List.not_mem_nil
      exact ⟨v, hv, hkey, (succeeded_iff_saved (hpaging.makes hv).1).mpr hsaved⟩
    · rintro ⟨v, hv, hkey, hsuccess⟩
      have hsaved := (succeeded_iff_saved (hpaging.makes hv).1).mp hsuccess
      exact ⟨v.instrument, (hmem _).mpr (.inr ⟨v, hv, rfl, hsaved⟩), hkey⟩
  rw [← not_iff_not, ← barsOn_eq_nil_iff, hdone.rows, ← hcollected]
  -- A day that has a row keeps it; one without gets the first bar for it, if there is one.
  by_cases hbefore : HasBar (ledger s₀.world).rows key day
  · rw [if_pos hbefore, barsOn_eq_nil_iff]
    exact not_congr (iff_of_true hbefore (.inl hbefore))
  · rw [if_neg hbefore, or_iff_right hbefore]
    by_cases hcollect : ∃ i ∈ done, i.key? = some key
    · rw [if_pos hcollect, and_iff_right hcollect, Option.toList_eq_nil_iff, List.find?_eq_none]
      simp
    · rw [if_neg hcollect]
      exact iff_of_true rfl fun h => hcollect h.1

/-! ### What the outcome of a run says -/

/-- The outcome of a run is the account of its visits. -/
theorem accounts_of_traces {o : Outcome} (htraces : b.Traces job start last s turns)
    (hrun : ((b.run job start last).exec s).1 = .ok o) :
    o.Accounts ((Turn.allVisits turns).map b.endOf) := by
  obtain ⟨s₀, r, s₁, -, hpaging, ⟨elapsed, hresult⟩, -⟩ := htraces
  rw [hresult] at hrun
  cases r with
  | error e => cases hrun
  | ok o' =>
      cases hrun
      rw [hpaging.outcome_eq]
      exact (Outcome.Accounts.nil.foldl _).elapsed elapsed

/-- An end that is counted is the end of a visit. -/
theorem exists_visit_of_countP {p : VisitEnd → Bool}
    (h : 0 < ((Turn.allVisits turns).map b.endOf).countP p) :
    ∃ v ∈ Turn.allVisits turns, p (b.endOf v) := by
  obtain ⟨e, he, hp⟩ := List.countP_pos_iff.mp h
  obtain ⟨v, hv, rfl⟩ := List.mem_map.mp he
  exact ⟨v, hv, hp⟩

/-- Every instrument that a run visits was in the watchlist when it started. -/
theorem mem_instruments_of_traces (laws : b.Transactional ledger) (watches : b.Watches ledger)
    (nodup : ((ledger s.world).instruments.map (·.id)).Nodup)
    (htraces : b.Traces job start last s turns) (hv : v ∈ Turn.allVisits turns) :
    v.instrument ∈ (ledger s.world).instruments := by
  obtain ⟨s₀, r, s₁, hworld₀, hpaging, -⟩ := htraces
  rw [← hworld₀] at nodup ⊢
  exact (hpaging.due_of_visited laws watches nodup (List.mem_map_of_mem hv)).2.1

/-- A run that counts a success has made a visit that succeeded. -/
theorem exists_succeeded {o : Outcome} (htraces : b.Traces job start last s turns)
    (hrun : ((b.run job start last).exec s).1 = .ok o) (hcount : 0 < o.success) :
    ∃ v ∈ Turn.allVisits turns, v.Succeeded := by
  rw [(accounts_of_traces htraces hrun).success] at hcount
  obtain ⟨v, hv, hend⟩ := exists_visit_of_countP hcount
  obtain ⟨_, _, _, _, hpaging, _⟩ := htraces
  refine ⟨v, hv, (succeeded_iff_saved (hpaging.makes hv).1).mpr ?_⟩
  cases h : b.endOf v with
  | saved n => exact ⟨n, rfl⟩
  | skipped => simp [h, VisitEnd.isSaved] at hend
  | failed e => simp [h, VisitEnd.isSaved] at hend

/-- A run that counts a recoverable failure has made a visit that failed so. -/
theorem exists_failedRecoverably {o : Outcome} (htraces : b.Traces job start last s turns)
    (hrun : ((b.run job start last).exec s).1 = .ok o) (hcount : 0 < o.recoverable) :
    ∃ v ∈ Turn.allVisits turns, v.FailedRecoverably := by
  rw [(accounts_of_traces htraces hrun).recoverable] at hcount
  obtain ⟨v, hv, hend⟩ := exists_visit_of_countP hcount
  obtain ⟨_, _, _, _, hpaging, _⟩ := htraces
  refine ⟨v, hv, (outcomeAfter_eq_count (hpaging.makes hv).1).trans ?_⟩
  cases h : b.endOf v with
  | failed e =>
      cases e with
      | broker e => rfl
      | _ => simp [h, VisitEnd.isOfBroker] at hend
  | saved n => simp [h, VisitEnd.isOfBroker] at hend
  | skipped => simp [h, VisitEnd.isOfBroker] at hend

end Batch

/-! ### Day after day -/

/-- A collection of a day: the session in which it begins, and the bars of an instrument that the
broker holds then. -/
structure DayRun (σ : Type) where
  day : Date
  session : Session σ
  held : List Bar

namespace DayRun

variable {b : Batch σ} {key : InstrumentKey} {r : DayRun σ} {runs : List (DayRun σ)}
  {rows rows' : List StoredBar} {day : Date}

/-- The session after the collection. -/
def after (r : DayRun σ) (b : Batch σ) : Session σ := ((b.collectOn r.day).exec r.session).2

/-- The collection makes a visit of some kind. -/
def Visits (r : DayRun σ) (b : Batch σ) (kind : Visit σ → Prop) : Prop :=
  ∃ turns, b.Traces .collection r.day r.day r.session turns ∧ ∃ v ∈ Turn.allVisits turns, kind v

/-- The broker, when it answers, does so with all the bars that it holds for the days asked for. It
may fail at any time, and so may the store, which keeps its transactions. -/
structure Served (r : DayRun σ) (b : Batch σ) (ledger : σ → Ledger) (key : InstrumentKey) : Prop where
  nodup : ((ledger r.session.world).instruments.map (·.id)).Nodup
  answers : ∃ answers inv, b.Faithful ledger answers inv ∧ inv r.session.world ∧
    ∀ first last c, c ∈ answers (.ofAssetType key.assetType) key first last ↔
      c ∈ r.held ∧ (Endpoint.ofAssetType key.assetType).AsksFor first last c.tradeDate

/-- The collection keeps a visit for the key at a time when the broker holds a bar for a day that the
collection asks for. -/
structure Brings (r : DayRun σ) (b : Batch σ) (key : InstrumentKey) (day : Date) : Prop where
  kept : r.Visits b fun v => v.instrument.key? = some key ∧ v.Succeeded
  asked : day = r.day ∨ Endpoint.ofAssetType key.assetType = .overseasStock ∧ day < r.day
  held : ∃ c ∈ r.held, c.tradeDate = day

/-- Collections one after the other, with the rows before the first and after the last: each begins
with the rows that the one before has left. -/
inductive Series (b : Batch σ) (ledger : σ → Ledger) :
    List StoredBar → List (DayRun σ) → List StoredBar → Prop where
  | nil {rows : List StoredBar} : Series b ledger rows [] rows
  | cons {r : DayRun σ} {runs : List (DayRun σ)} {rows rows' : List StoredBar} :
      (ledger r.session.world).rows = rows →
      Series b ledger (ledger (r.after b).world).rows runs rows' →
      Series b ledger rows (r :: runs) rows'

/-- **What a collection stores.** After it a day has a row exactly if it had one before, or if the
collection has brought one. -/
theorem hasBar_after (served : r.Served b ledger key) :
    HasBar (ledger (r.after b).world).rows key day ↔
      HasBar (ledger r.session.world).rows key day ∨ r.Brings b key day := by
  obtain ⟨nodup, answers, inv, laws, hinv, hholds⟩ := served
  have hrow {turns : List (Turn σ)} (htraces : b.Traces .collection r.day r.day r.session turns) :
      HasBar (ledger (r.after b).world).rows key day ↔
        HasBar (ledger r.session.world).rows key day ∨
        (∃ v ∈ Turn.allVisits turns, v.instrument.key? = some key ∧ v.Succeeded) ∧
          ∃ c ∈ b.barsOf answers .collection r.day r.day key, c.tradeDate = day :=
    Batch.hasBar_run laws hinv nodup htraces
  -- What a visit that was kept came by is what the broker held and was asked for.
  have hpage {turns : List (Turn σ)} (htraces : b.Traces .collection r.day r.day r.session turns)
      (hkept : ∃ v ∈ Turn.allVisits turns, v.instrument.key? = some key ∧ v.Succeeded) :
      (∃ c ∈ b.barsOf answers .collection r.day r.day key, c.tradeDate = day) ↔
        (day = r.day ∨ Endpoint.ofAssetType key.assetType = .overseasStock ∧ day < r.day) ∧
          ∃ c ∈ r.held, c.tradeDate = day := by
    obtain ⟨v, hv, hkey, hsuccess⟩ := hkept
    obtain ⟨_, _, _, _, hpaging, _⟩ := htraces
    obtain ⟨strategy, hfind⟩ := Batch.find_of_succeeded (hpaging.makes hv).1 hsuccess hkey
    rw [Batch.barsOf_collection hfind, ← Endpoint.asksFor_one_day]
    simp only [hholds]
    constructor
    · rintro ⟨c, ⟨hheld, hasked⟩, rfl⟩
      exact ⟨hasked, c, hheld, rfl⟩
    · rintro ⟨hasked, c, hheld, rfl⟩
      exact ⟨c, ⟨hheld, hasked⟩, rfl⟩
  constructor
  · intro hafter
    obtain ⟨turns, htraces⟩ := Batch.exists_traces b .collection r.day r.day r.session
    rcases (hrow htraces).mp hafter with hbefore | ⟨hkept, hbar⟩
    · exact .inl hbefore
    · obtain ⟨hasked, hheld⟩ := (hpage htraces hkept).mp hbar
      exact .inr ⟨⟨turns, htraces, hkept⟩, hasked, hheld⟩
  · rintro (hbefore | ⟨⟨turns, htraces, hkept⟩, hasked, hheld⟩)
    · obtain ⟨turns, htraces⟩ := Batch.exists_traces b .collection r.day r.day r.session
      exact (hrow htraces).mpr (.inl hbefore)
    · exact (hrow htraces).mpr (.inr ⟨hkept, (hpage htraces hkept).mpr ⟨hasked, hheld⟩⟩)

/-- **The days that collections leave out.** After any series of collections a day has a row exactly
if it had one before, or if one of them has brought one: the collection of the day itself, or, for a
stock overseas, a later one. A visit that succeeds on another day makes up for nothing. -/
theorem hasBar_series_iff (served : ∀ r ∈ runs, r.Served b ledger key)
    (hseries : Series b ledger rows runs rows') :
    HasBar rows' key day ↔ HasBar rows key day ∨ ∃ r ∈ runs, r.Brings b key day := by
  induction hseries with
  | nil => simp
  | @cons r runs rows rows' hbegins _ ih =>
      obtain ⟨hfirst, hrest⟩ := List.forall_mem_cons.mp served
      rw [ih hrest, hasBar_after hfirst, hbegins, List.exists_mem_cons_iff, or_assoc]

/-- A collection that keeps its visit to an instrument makes up for the ones before it, whichever of
them failed because of the broker: afterwards all their days are stored for which the broker holds a
bar by then. -/
def MakesUp (b : Batch σ) (ledger : σ → Ledger) : Prop :=
  ∀ (i : Instrument) (key : InstrumentKey) (before : List (DayRun σ)) (final : DayRun σ)
    (rows rows' : List StoredBar), i.backfillCompleted → i.key? = some key →
    (∀ r ∈ before ++ [final],
      r.Served b ledger key ∧ i ∈ (ledger r.session.world).instruments) →
    (before ++ [final]).Pairwise (·.day < ·.day) →
    (∀ r ∈ before, r.Visits b fun v =>
      v.instrument = i ∧ (v.FailedRecoverably ∨ v.Succeeded)) →
    (final.Visits b fun v => v.instrument = i ∧ v.Succeeded) →
    Series b ledger rows (before ++ [final]) rows' →
    ∀ r ∈ before ++ [final], (∃ c ∈ final.held, c.tradeDate = r.day) → HasBar rows' key r.day

end DayRun

/-! ### A day that is missed for good -/

namespace MissedDay

/-- A day by its number after the first one. -/
def day (n : Nat) : Date := ((default : Date).addDays? n).getD default

/-- A stock whose history is complete. -/
def stock : Instrument := ⟨1, "005930", none, none, some .domesticStock, true⟩

def key : InstrumentKey := ⟨.domesticStock, "005930", none⟩

/-- A broker that has the bars of two days, and room for more on a page. -/
def market : RehearsalMarket := ⟨3, .oldestFirst, false, [("005930", [day 0, day 1])], [], [], []⟩

def batch : Batch RehearsalWorld := RehearsalWorld.batch (.full 3) ⟨10, 3, day 0⟩

def books : RehearsalWorld → Ledger := RehearsalStore.ledgerOf RehearsalWorld.storePart

/-- A collection that begins with some rows, with a broker that has some faults. -/
def run (n : Nat) (faults : List MarketFault) (rows : List StoredBar) : DayRun RehearsalWorld where
  day := day n
  session := ⟨⟨.ofLedger ⟨[stock], rows, none⟩, { market with faults := faults }, .empty⟩,
    ⟨default, 0⟩, []⟩
  held := [day 0, day 1].map fun d => Bar.closeOnly d RehearsalMarket.closingPrice

/-- The collection of the first day, in which the broker refuses to answer. -/
def failing : DayRun RehearsalWorld := run 0 [⟨"005930", 0, .rateLimited⟩] []

/-- The collection of the second day, in which nothing fails. -/
def recovering : DayRun RehearsalWorld := run 1 [] (books (failing.after batch).world).rows

theorem served (n : Nat) (faults : List MarketFault) (rows : List StoredBar) :
    (run n faults rows).Served batch books key := by
  refine ⟨List.nodup_singleton _, _, _, RehearsalWorld.faithful_batch (.full 3) _ market,
    fun _ => rfl, fun first last c => ?_⟩
  let r : PriceRequest := ⟨.domesticStock, key, first, last⟩
  let window := historyWindow (run n faults rows).held (some first) last
  have knows : market.Knows r.key.stockCode [day 0, day 1] 3 := ⟨rfl, rfl, rfl, rfl⟩
  have newest : IsNewest 3 window (market.page r) := knows.isNewest_page (by decide)
  have hpage : c ∈ market.page r ↔ c ∈ window := by
    refine ⟨newest.subset c, newest.mem_of_length_lt ?_⟩
    have hlength : window.length ≤ 2 := List.length_filter_le _ _
    rw [newest.length_eq]
    omega
  have hasks : (Endpoint.ofAssetType key.assetType).AsksFor first last c.tradeDate ↔
      c.tradeDate ≤ last ∧ ∀ d ∈ some first, d ≤ c.tradeDate := by
    simp [Endpoint.AsksFor, key, Endpoint.ofAssetType]
  rw [hasks, ← mem_historyWindow]
  exact hpage

/-- Both collections, one after the other. -/
theorem series : DayRun.Series batch books [] [failing, recovering]
    (books (recovering.after batch).world).rows :=
  .cons rfl (.cons rfl .nil)

/-- The only instrument that a collection visits is the stock. -/
theorem instrument_of_visited {n : Nat} {faults : List MarketFault} {rows : List StoredBar}
    {turns : List (Turn RehearsalWorld)} {v : Visit RehearsalWorld}
    (htraces : batch.Traces .collection (day n) (day n) (run n faults rows).session turns)
    (hv : v ∈ Turn.allVisits turns) : v.instrument = stock := by
  obtain ⟨nodup, _, _, laws, -⟩ := served n faults rows
  exact List.mem_singleton.mp
    (Batch.mem_instruments_of_traces laws.transactional laws.watches nodup htraces hv)

/-- The visit of the first collection fails because of the broker. -/
theorem visits_failing :
    failing.Visits batch fun v => v.instrument = stock ∧ (v.FailedRecoverably ∨ v.Succeeded) := by
  obtain ⟨turns, htraces⟩ := Batch.exists_traces batch .collection (day 0) (day 0) failing.session
  have hrun : ((batch.run .collection (day 0) (day 0)).exec failing.session).1 =
      .ok { total := 1, recoverable := 1 } := by
    decide +kernel
  obtain ⟨v, hv, hfailed⟩ := Batch.exists_failedRecoverably htraces hrun Nat.one_pos
  exact ⟨turns, htraces, v, hv, instrument_of_visited htraces hv, .inl hfailed⟩

/-- The visit of the second collection is kept. -/
theorem visits_recovering :
    recovering.Visits batch fun v => v.instrument = stock ∧ v.Succeeded := by
  obtain ⟨turns, htraces⟩ :=
    Batch.exists_traces batch .collection (day 1) (day 1) recovering.session
  have hrun : ((batch.run .collection (day 1) (day 1)).exec recovering.session).1 =
      .ok { total := 1, success := 1, savedRows := 1 } := by
    decide +kernel
  obtain ⟨v, hv, hsuccess⟩ := Batch.exists_succeeded htraces hrun Nat.one_pos
  exact ⟨turns, htraces, v, hv, instrument_of_visited htraces hv, hsuccess⟩

/-- The day of the first collection is not stored after the second. -/
theorem not_hasBar : ¬ HasBar (books (recovering.after batch).world).rows key (day 0) := by
  decide +kernel

/-- **A day that is missed is missed for good.** The collection of the first day fails because of the
broker, and the one of the second day keeps its visit; but then the broker is asked for the second day
alone, and the first is not stored. -/
theorem not_makesUp : ¬ DayRun.MakesUp batch books := by
  intro hmakesUp
  have hheld : ∃ c ∈ recovering.held, c.tradeDate = failing.day :=
    ⟨_, List.mem_cons_self, rfl⟩
  refine not_hasBar (hmakesUp stock key [failing] recovering _ _ rfl rfl ?_ ?_ ?_ visits_recovering
    series failing List.mem_cons_self hheld)
  · intro r hr
    rcases List.mem_pair.mp hr with rfl | rfl
    · exact ⟨served _ _ _, List.mem_singleton_self _⟩
    · exact ⟨served _ _ _, List.mem_singleton_self _⟩
  · exact List.pairwise_pair.mpr (by decide)
  · intro r hr
    rw [List.mem_singleton.mp hr]
    exact visits_failing

/-- The second collection brings its own day, and neither of the two brings the first. -/
theorem brings_second_day :
    (∃ r ∈ [failing, recovering], r.Brings batch key (day 1)) ∧
      ¬ ∃ r ∈ [failing, recovering], r.Brings batch key (day 0) := by
  have hserved : ∀ r ∈ [failing, recovering], r.Served batch books key := by
    intro r hr
    rcases List.mem_pair.mp hr with rfl | rfl
    · exact served _ _ _
    · exact served _ _ _
  have hsecond : HasBar (books (recovering.after batch).world).rows key (day 1) := by
    decide +kernel
  constructor
  · refine ((DayRun.hasBar_series_iff hserved series).mp hsecond).resolve_left ?_
    exact fun ⟨_, hmem, _⟩ => List.not_mem_nil hmem
  · intro hfirst
    exact not_hasBar ((DayRun.hasBar_series_iff hserved series).mpr (.inr hfirst))

end MissedDay

end DailyBars
