import DailyBars.Proofs.Session
import DailyBars.Storage.Ledger
import Mathlib.Data.List.Nodup

/-!
# Stored rows and what a transaction sees of them

What a price store holds is a list of rows, at most one of them for a key and a day. A transaction
sees the rows that are committed and its own. `PriceStore.Exact` says of a store that, while a
transaction is open, it answers neither more nor less than that: the days asked for are exactly
those with a row, and bars of other days are inserted one and all.
-/

namespace DailyBars

/-- There is a row for the key and the day. -/
def HasBar (rows : List StoredBar) (key : InstrumentKey) (day : Date) : Prop :=
  ∃ r ∈ rows, r.key = key ∧ r.bar.tradeDate = day

instance (rows : List StoredBar) (key : InstrumentKey) (day : Date) :
    Decidable (HasBar rows key day) :=
  inferInstanceAs (Decidable (∃ r ∈ rows, _))

/-- The bars that are stored for the key and the day. -/
def barsOn (rows : List StoredBar) (key : InstrumentKey) (day : Date) : List Bar :=
  (rows.filter fun r => r.key == key && r.bar.tradeDate == day).map (·.bar)

/-- Bars as rows of a key. -/
def rowsOf (key : InstrumentKey) (bars : List Bar) : List StoredBar := bars.map fun b => ⟨key, b⟩

/-! ### Looking for a bar -/

section Rows

variable {rows rows' : List StoredBar} {key other : InstrumentKey} {bars : List Bar} {day : Date}

@[simp] theorem hasBar_append :
    HasBar (rows ++ rows') key day ↔ HasBar rows key day ∨ HasBar rows' key day := by
  simp only [HasBar, List.mem_append, or_and_right, exists_or]

@[simp] theorem hasBar_rowsOf :
    HasBar (rowsOf key bars) other day ↔ key = other ∧ day ∈ bars.map (·.tradeDate) := by
  simp only [HasBar, rowsOf, List.mem_map]
  constructor
  · rintro ⟨r, ⟨b, hb, rfl⟩, hkey, hday⟩
    exact ⟨hkey, b, hb, hday⟩
  · rintro ⟨hkey, b, hb, hday⟩
    exact ⟨_, ⟨b, hb, rfl⟩, hkey, hday⟩

@[simp] theorem barsOn_append :
    barsOn (rows ++ rows') key day = barsOn rows key day ++ barsOn rows' key day := by
  simp [barsOn]

theorem barsOn_eq_nil_iff : barsOn rows key day = [] ↔ ¬ HasBar rows key day := by
  simp [barsOn, HasBar, List.filter_eq_nil_iff]

theorem barsOn_rowsOf :
    barsOn (rowsOf key bars) key day = bars.filter fun b => b.tradeDate == day := by
  simp [barsOn, rowsOf, List.filter_map, Function.comp_def]

/-- Among bars of different days the only one of a day is found. -/
theorem filter_day_eq_singleton {b : Bar} (distinct : (bars.map (·.tradeDate)).Nodup)
    (hb : b ∈ bars) : (bars.filter fun c => c.tradeDate == b.tradeDate) = [b] := by
  induction bars with
  | nil => cases hb
  | cons c rest ih =>
      rw [List.map_cons, List.nodup_cons] at distinct
      rcases List.mem_cons.mp hb with rfl | hb
      · rw [List.filter_cons_of_pos (by simp), List.filter_eq_nil_iff.mpr]
        intro c hc hday
        exact distinct.1 (List.mem_map.mpr ⟨c, hc, by simpa using hday⟩)
      · have hne : c.tradeDate ≠ b.tradeDate := by
          intro h
          exact distinct.1 (List.mem_map.mpr ⟨b, hb, h.symm⟩)
        rw [List.filter_cons_of_neg (by simpa using hne)]
        exact ih distinct.2 hb

/-- Rows are the same up to their order if there are the same bars for each key and day. -/
theorem perm_of_barsOn_eq (h : ∀ key day, barsOn rows key day = barsOn rows' key day) :
    rows.Perm rows' := by
  have count (rows : List StoredBar) (r : StoredBar) :
      rows.count r = (barsOn rows r.key r.bar.tradeDate).count r.bar := by
    unfold barsOn
    rw [List.count, List.count, List.countP_map, List.countP_filter]
    refine List.countP_congr fun t _ => ?_
    obtain ⟨key, bar⟩ := r
    obtain ⟨key', bar'⟩ := t
    simp only [Function.comp_apply, beq_iff_eq, Bool.and_eq_true, StoredBar.mk.injEq]
    constructor
    · rintro ⟨rfl, rfl⟩
      exact ⟨rfl, rfl, rfl⟩
    · rintro ⟨hbar, hkey, -⟩
      exact ⟨hkey, hbar⟩
  exact List.perm_iff_count.mpr fun r => by rw [count rows, count rows', h]

end Rows

/-! ### Inside a transaction -/

/-- What can be seen of a world from inside a transaction. -/
structure TransactionView (σ : Type) where
  isOpen : σ → Prop
  /-- The rows that the transaction sees, its own included. -/
  rows : σ → List StoredBar

/-- While a transaction is open, the store answers every call: the days that it names are exactly
those with a row, and bars of distinct days without a row are inserted and counted. -/
structure PriceStore.Exact {σ : Type} (store : PriceStore σ) (view : TransactionView σ) : Prop where
  existingDates : ∀ (key : InstrumentKey) (first last : Date) (s : Session σ),
    view.isOpen s.world → ∃ days s', (store.existingDates key first last).exec s = (.ok days, s') ∧
      view.isOpen s'.world ∧ view.rows s'.world = view.rows s.world ∧
      ∀ d, d ∈ days ↔ first ≤ d ∧ d ≤ last ∧ HasBar (view.rows s.world) key d
  saveAll : ∀ (key : InstrumentKey) (bars : List Bar) (s : Session σ),
    view.isOpen s.world → (bars.map (·.tradeDate)).Nodup →
    (∀ b ∈ bars, ¬ HasBar (view.rows s.world) key b.tradeDate) →
    ∃ s', (store.saveAll key bars).exec s = (.ok bars.length, s') ∧
      view.isOpen s'.world ∧ view.rows s'.world = view.rows s.world ++ rowsOf key bars

end DailyBars
