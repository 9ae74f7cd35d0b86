import DailyBars.Collect.Dedup
import DailyBars.Proofs.Calendar.DateOrder
import DailyBars.Proofs.Storage.Rows

/-!
# Storing what is missing

Inside a transaction of a store that answers exactly, storing a page inserts the bars of it on days
without a row, in the order of the page, and gives their number. Rows that were there stay as they
are.
-/

namespace DailyBars

/-- The bars of a page on days for which the key has no row. -/
def missingBars (rows : List StoredBar) (key : InstrumentKey) (page : List Bar) : List Bar :=
  page.filter fun b => !decide (HasBar rows key b.tradeDate)

section Missing

variable {rows : List StoredBar} {key : InstrumentKey} {page : List Bar} {b : Bar}

theorem mem_missingBars :
    b ∈ missingBars rows key page ↔ b ∈ page ∧ ¬ HasBar rows key b.tradeDate := by
  simp [missingBars]

theorem nodup_missingBars (distinct : (page.map (·.tradeDate)).Nodup) :
    ((missingBars rows key page).map (·.tradeDate)).Nodup :=
  distinct.sublist (List.filter_sublist.map _)

/-- The days between the oldest and the newest of a page are all that has to be asked for. -/
theorem freshBars_eq_missingBars {days : List Date} {oldest newest : Date}
    (hmin : Date.min? (page.map (·.tradeDate)) = some oldest)
    (hmax : Date.max? (page.map (·.tradeDate)) = some newest)
    (hdays : ∀ d, d ∈ days ↔ oldest ≤ d ∧ d ≤ newest ∧ HasBar rows key d) :
    freshBars days page = missingBars rows key page := by
  refine List.filter_congr fun b hb => ?_
  have hmem : b.tradeDate ∈ page.map (·.tradeDate) := List.mem_map_of_mem hb
  have hday : b.tradeDate ∈ days ↔ HasBar rows key b.tradeDate := by
    rw [hdays]
    exact ⟨fun h => h.2.2, fun h => ⟨Date.min?_le hmin hmem, Date.le_max? hmax hmem, h⟩⟩
  rw [List.contains_eq_mem, decide_eq_decide.mpr hday]

end Missing

section Saving

variable {σ : Type} {store : PriceStore σ} {view : TransactionView σ} {key : InstrumentKey}
  {page : List Bar} {s : Session σ}

/-- What is left over of a page is inserted and counted. -/
theorem exec_saveFresh (exact : store.Exact view) (fetched : Nat) {fresh : List Bar}
    (hopen : view.isOpen s.world) (distinct : (fresh.map (·.tradeDate)).Nodup)
    (missing : ∀ b ∈ fresh, ¬ HasBar (view.rows s.world) key b.tradeDate) :
    ∃ s', (store.saveFresh key fetched fresh).exec s = (.ok fresh.length, s') ∧
      view.isOpen s'.world ∧ view.rows s'.world = view.rows s.world ++ rowsOf key fresh := by
  unfold PriceStore.saveFresh
  cases fresh with
  | nil => exact ⟨_, rfl, hopen, by simp [rowsOf]⟩
  | cons b rest =>
      obtain ⟨s₁, hsave, hopen₁, hrows⟩ := exact.saveAll key (b :: rest) s hopen distinct missing
      rw [if_neg (by simp), Attempt.exec_bind_ok (Attempt.exec_orElseAs_ok.mpr hsave)]
      exact ⟨_, rfl, hopen₁, hrows⟩

/-- **Storing a page** inserts the missing bars of it, and gives their number. -/
theorem exec_saveNew (exact : store.Exact view) (key : InstrumentKey) (hopen : view.isOpen s.world)
    (distinct : (page.map (·.tradeDate)).Nodup) :
    let missing := missingBars (view.rows s.world) key page
    ∃ s', (store.saveNew key page).exec s = (.ok missing.length, s') ∧
      view.isOpen s'.world ∧ view.rows s'.world = view.rows s.world ++ rowsOf key missing := by
  unfold PriceStore.saveNew
  cases hmin : Date.min? (page.map (·.tradeDate)) with
  | none =>
      obtain rfl : page = [] := List.map_eq_nil_iff.mp (Date.min?_eq_none_iff.mp hmin)
      exact ⟨s, rfl, hopen, by simp [missingBars, rowsOf]⟩
  | some oldest =>
      cases hmax : Date.max? (page.map (·.tradeDate)) with
      | none =>
          rw [Date.max?_eq_none_iff.mp hmax] at hmin
          cases hmin
      | some newest =>
          obtain ⟨days, s₁, hask, hopen₁, hrows₁, hdays⟩ :=
            exact.existingDates key oldest newest s hopen
          dsimp only
          rw [hmin, hmax, Attempt.exec_bind_ok (Attempt.exec_orElseAs_ok.mpr hask),
            freshBars_eq_missingBars hmin hmax hdays, ← hrows₁]
          exact exec_saveFresh exact page.length hopen₁ (nodup_missingBars distinct)
            fun b hb => (mem_missingBars.mp hb).2

end Saving

end DailyBars
