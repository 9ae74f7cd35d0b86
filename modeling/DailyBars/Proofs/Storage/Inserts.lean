import DailyBars.Proofs.Storage.Transaction

/-!
# Inserting what is not there

A ledger takes a bar only if it has none for the key and the day, so of several bars for a day the
first one counts, and a bar that is there already is never replaced. `absentRows` are the rows that
come of inserting some bars; they depend on nothing but the days with a row, and inserting the bars
once more comes to nothing.
-/

namespace DailyBars

/-- The rows that bars become whose days have no row yet. -/
def absentRows (rows : List StoredBar) (key : InstrumentKey) : List Bar → List StoredBar
  | [] => []
  | b :: bs =>
    if HasBar rows key b.tradeDate then absentRows rows key bs
    else ⟨key, b⟩ :: absentRows (rows ++ [⟨key, b⟩]) key bs

section Absent

variable {rows rows' : List StoredBar} {key other : InstrumentKey} {bars bars' : List Bar}
  {day : Date} {r : StoredBar} {b : Bar}

theorem hasBar_singleton : HasBar [r] key day ↔ r.key = key ∧ r.bar.tradeDate = day := by
  simp [HasBar]

/-- Bars on days with a row come to nothing. -/
theorem absentRows_eq_nil (h : ∀ b ∈ bars, HasBar rows key b.tradeDate) :
    absentRows rows key bars = [] := by
  induction bars with
  | nil => rfl
  | cons b rest ih =>
      rw [absentRows, if_pos (h b List.mem_cons_self)]
      exact ih fun c hc => h c (List.mem_cons_of_mem _ hc)

/-- What is inserted depends only on the days that have a row of the key. -/
theorem absentRows_congr (h : ∀ day, HasBar rows key day ↔ HasBar rows' key day) :
    absentRows rows key bars = absentRows rows' key bars := by
  induction bars generalizing rows rows' with
  | nil => rfl
  | cons b rest ih =>
      have hmore (day : Date) :
          HasBar (rows ++ [⟨key, b⟩]) key day ↔ HasBar (rows' ++ [⟨key, b⟩]) key day := by
        rw [hasBar_append, hasBar_append, h day]
      rw [absentRows, absentRows, ih h, ih hmore]
      simp only [h b.tradeDate]

/-- Inserting some bars after others is inserting them all. -/
theorem absentRows_append :
    absentRows rows key (bars ++ bars') =
      absentRows rows key bars ++ absentRows (rows ++ absentRows rows key bars) key bars' := by
  induction bars generalizing rows with
  | nil => simp [absentRows]
  | cons b rest ih =>
      rw [List.cons_append, absentRows, absentRows]
      split
      · exact ih
      · rw [ih, List.cons_append, List.append_assoc]
        rfl

/-- Bars on days with a row can be left out before the others are inserted. -/
theorem absentRows_filter {keep : Bar → Bool}
    (h : ∀ b ∈ bars, keep b = false → HasBar rows key b.tradeDate) :
    absentRows rows key (bars.filter keep) = absentRows rows key bars := by
  induction bars generalizing rows with
  | nil => rfl
  | cons b rest ih =>
      have hrest : ∀ c ∈ rest, keep c = false → HasBar rows key c.tradeDate := fun c hc =>
        h c (List.mem_cons_of_mem _ hc)
      by_cases hkeep : keep b
      · rw [List.filter_cons_of_pos hkeep, absentRows, absentRows, ih hrest]
        split
        · rfl
        · rw [ih fun c hc hleft => hasBar_append.mpr (.inl (hrest c hc hleft))]
      · rw [List.filter_cons_of_neg hkeep, absentRows,
          if_pos (h b List.mem_cons_self (by simpa using hkeep)), ih hrest]

/-- A day with a row keeps its rows, and any other day of the key gets the first bar for it. -/
theorem barsOn_append_absentRows :
    barsOn (rows ++ absentRows rows key bars) other day =
      if HasBar rows other day then barsOn rows other day
      else if other = key then (bars.find? fun b => b.tradeDate == day).toList else [] := by
  induction bars generalizing rows with
  | nil =>
      rw [absentRows, List.append_nil]
      split
      · rfl
      · rename_i hno
        rw [barsOn_eq_nil_iff.mpr hno]
        split <;> rfl
  | cons b rest ih =>
      rw [absentRows]
      by_cases hrow : HasBar rows key b.tradeDate
      · rw [if_pos hrow, ih]
        by_cases hday : b.tradeDate = day
        · -- The bar is on the day that is looked at, which has a row already.
          subst hday
          by_cases hkey : other = key
          · rw [hkey, if_pos hrow, if_pos hrow]
          · simp [hkey]
        · rw [List.find?_cons_of_neg (by simpa using hday)]
      · rw [if_neg hrow, ← List.singleton_append, ← List.append_assoc, ih]
        simp only [hasBar_append, hasBar_singleton, barsOn_append]
        by_cases hhere : key = other ∧ b.tradeDate = day
        · obtain ⟨rfl, rfl⟩ := hhere
          rw [if_pos (.inr ⟨rfl, rfl⟩), if_neg hrow, if_pos rfl, barsOn_eq_nil_iff.mpr hrow,
            List.find?_cons_of_pos (by simp)]
          simp [barsOn]
        · have hnone : barsOn [⟨key, b⟩] other day = [] :=
            barsOn_eq_nil_iff.mpr fun h => hhere (hasBar_singleton.mp h)
          rw [hnone, List.append_nil]
          simp only [hhere, or_false]
          by_cases hkey : other = key
          · have hday : b.tradeDate ≠ day := fun h => hhere ⟨hkey.symm, h⟩
            rw [List.find?_cons_of_neg (by simpa using hday)]
          · simp [hkey]

/-- After an insertion the days with a row are those from before and, for the key, those of the
bars. -/
theorem hasBar_append_absentRows : HasBar (rows ++ absentRows rows key bars) other day ↔
    HasBar rows other day ∨ other = key ∧ day ∈ bars.map (·.tradeDate) := by
  rw [← not_iff_not, ← barsOn_eq_nil_iff, barsOn_append_absentRows]
  by_cases hrow : HasBar rows other day
  · simp [barsOn_eq_nil_iff, hrow]
  · rw [if_neg hrow]
    by_cases hkey : other = key
    · subst hkey
      simp [hrow]
    · simp [hrow, hkey]

end Absent

/-- While a transaction is open, the store answers every call: the days that it names are exactly
those with a row, and of the bars that it is given it inserts and counts each one on a day without a
row at that point. -/
structure PriceStore.Inserting {σ : Type} (store : PriceStore σ) (view : TransactionView σ) : Prop where
  existingDates : ∀ (key : InstrumentKey) (first last : Date) (s : Session σ),
    view.isOpen s.world → ∃ days s', (store.existingDates key first last).exec s = (.ok days, s') ∧
      view.isOpen s'.world ∧ view.rows s'.world = view.rows s.world ∧
      ∀ d, d ∈ days ↔ first ≤ d ∧ d ≤ last ∧ HasBar (view.rows s.world) key d
  saveAll : ∀ (key : InstrumentKey) (bars : List Bar) (s : Session σ), view.isOpen s.world →
    ∃ s', (store.saveAll key bars).exec s =
        (.ok (absentRows (view.rows s.world) key bars).length, s') ∧
      view.isOpen s'.world ∧
      view.rows s'.world = view.rows s.world ++ absentRows (view.rows s.world) key bars

namespace Ledger

variable {l : Ledger} {key : InstrumentKey} {bars : List Bar}

/-- An open transaction gets the absent rows of the bars that are inserted, and counts them. -/
theorem insert_eq_absentRows (hopen : l.draft.isSome) :
    l.insert key bars =
      ((absentRows l.visible key bars).length, l.addRows (absentRows l.visible key bars)) := by
  induction bars generalizing l with
  | nil => simp [insert, absentRows]
  | cons b rest ih =>
      have hstep : l.addRow ⟨key, b⟩ = l.addRows [⟨key, b⟩] := rfl
      rw [insert, absentRows]
      by_cases hrow : HasBar l.visible key b.tradeDate
      · rw [if_pos (holds_iff.mpr hrow), if_pos hrow, ih hopen]
      · rw [if_neg (fun h => hrow (holds_iff.mp h)), if_neg hrow, hstep, ih (by simpa using hopen),
          visible_addRows hopen, addRows_addRows]
        rfl

/-- Whatever is inserted is counted, and it is all under the key. -/
theorem exists_insert_eq (key : InstrumentKey) (bars : List Bar) (l : Ledger) :
    ∃ rows, l.insert key bars = (rows.length, l.addRows rows) ∧ ∀ r ∈ rows, r.key = key := by
  induction bars generalizing l with
  | nil => exact ⟨[], by simp [insert], by simp⟩
  | cons b rest ih =>
      rw [insert]
      split
      · exact ih l
      · obtain ⟨rows, hinsert, hkeys⟩ := ih (l.addRow ⟨key, b⟩)
        refine ⟨⟨key, b⟩ :: rows, ?_, ?_⟩
        · have hstep : l.addRow ⟨key, b⟩ = l.addRows [⟨key, b⟩] := rfl
          rw [hinsert, hstep, addRows_addRows]
          rfl
        · simpa using hkeys

end Ledger

end DailyBars
