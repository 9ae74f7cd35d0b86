import DailyBars.Proofs.Storage.Inserts
import DailyBars.Proofs.Storage.Watchlist

/-!
# What belongs to an instrument

An instrument has its entry in the watchlist, with its flag, and the rows under its key. A ledger can
be looked at without an instrument, or for an instrument alone; a commit of an instrument's own rows
and flag does not show without it, and one of other rows and flags shows the same in all ledgers
that are the same without it.
-/

namespace DailyBars.Ledger

variable {l l' l₁ l₂ : Ledger} {x i : Instrument} {ids : List Int} {rows : List StoredBar}
  {instruments : List Instrument}

/-- What is committed, without an instrument and the rows under its key. -/
def without (x : Instrument) (l : Ledger) : List Instrument × List StoredBar :=
  (l.instruments.filter (·.id != x.id), l.rows.filter fun r => some r.key != x.key?)

/-- What is committed for an instrument: its entry, and the rows under its key. -/
def entryOf (i : Instrument) (l : Ledger) : List Instrument × List StoredBar :=
  (l.instruments.filter (·.id == i.id), l.rows.filter fun r => some r.key == i.key?)

theorem without_eq_of_committed (h : l'.committed = l.committed) : l'.without x = l.without x := by
  obtain ⟨hinstruments, hrows⟩ := Prod.mk.inj h
  rw [without, hinstruments, hrows, without]

theorem entryOf_eq_of_committed (h : l'.committed = l.committed) : l'.entryOf i = l.entryOf i := by
  obtain ⟨hinstruments, hrows⟩ := Prod.mk.inj h
  rw [entryOf, hinstruments, hrows, entryOf]

/-- Setting flags leaves the entries where they are. -/
theorem filter_flagged (p : Int → Bool) :
    (flagged ids instruments).filter (fun i => p i.id) =
      flagged ids (instruments.filter fun i => p i.id) := by
  rw [flagged, List.filter_map, flagged]
  refine congrArg _ (List.filter_congr fun i _ => ?_)
  dsimp only [Function.comp_apply]
  split <;> rfl

theorem flagged_eq_self (h : ∀ i ∈ instruments, i.id ∉ ids) :
    flagged ids instruments = instruments := by
  refine (List.map_congr_left fun i hi => ?_).trans (List.map_id _)
  rw [if_neg (by simpa using h i hi), id_def]

/-- What is added is added without the instrument too. -/
theorem without_of_committed
    (h : l'.committed = (flagged ids l.instruments, l.rows ++ rows)) :
    l'.without x = (flagged ids (l.without x).1,
      (l.without x).2 ++ rows.filter fun r => some r.key != x.key?) := by
  obtain ⟨hinstruments, hrows⟩ := Prod.mk.inj h
  rw [without, hinstruments, hrows, filter_flagged (· != x.id), List.filter_append]
  rfl

/-- Ledgers that are the same without an instrument stay so if the same is added to both. -/
theorem without_congr {l₁' l₂' : Ledger} (hsame : l₁.without x = l₂.without x)
    (h₁ : l₁'.committed = (flagged ids l₁.instruments, l₁.rows ++ rows))
    (h₂ : l₂'.committed = (flagged ids l₂.instruments, l₂.rows ++ rows)) :
    l₁'.without x = l₂'.without x := by
  rw [without_of_committed h₁, without_of_committed h₂, hsame]

/-- What is added for the instrument alone does not show without it. -/
theorem without_of_own (h : l'.committed = (flagged ids l.instruments, l.rows ++ rows))
    (hids : ∀ id ∈ ids, id = x.id) (hrows : ∀ r ∈ rows, some r.key = x.key?) :
    l'.without x = l.without x := by
  have hflags : flagged ids (l.without x).1 = (l.without x).1 := by
    refine flagged_eq_self fun i hi hid => ?_
    have hne : i.id ≠ x.id := by simpa using (List.mem_filter.mp hi).2
    exact hne (hids i.id hid)
  have hnone : (rows.filter fun r => some r.key != x.key?) = [] := by
    rw [List.filter_eq_nil_iff]
    intro r hr
    simp [hrows r hr]
  rw [without_of_committed h, hflags, hnone, List.append_nil]

/-- Ledgers that are the same without an instrument have the same for every other one. -/
theorem entryOf_congr (hsame : l₁.without x = l₂.without x) (hid : i.id ≠ x.id)
    (hkey : ∀ key, i.key? = some key → x.key? ≠ some key) : l₁.entryOf i = l₂.entryOf i := by
  -- What belongs to the other instrument can be taken from what is left without `x`.
  have inside (l : Ledger) : l.entryOf i = ((l.without x).1.filter (·.id == i.id),
      (l.without x).2.filter fun r => some r.key == i.key?) := by
    unfold without entryOf
    rw [List.filter_filter, List.filter_filter]
    refine Prod.ext (List.filter_congr fun j _ => ?_) (List.filter_congr fun r _ => ?_)
    · by_cases hj : j.id = i.id
      · simp [hj, hid]
      · simp [hj]
    · by_cases hr : some r.key = i.key?
      · simp [hr, (hr ▸ hkey r.key hr.symm).symm]
      · simp [hr]
  rw [inside l₁, inside l₂, hsame]

/-! ### Inside a transaction of an instrument -/

section Sees

variable {key : InstrumentKey} (hentry : l₁.entryOf i = l₂.entryOf i) (hdraft : l₁.draft = l₂.draft)
  (hkey : i.key? = some key)

include hentry hdraft hkey

/-- With the same draft, the same rows are seen under the instrument's key. -/
theorem filter_visible :
    (l₁.visible.filter fun r => r.key == key) = l₂.visible.filter fun r => r.key == key := by
  have hrows := congrArg Prod.snd hentry
  simp only [entryOf, hkey, Option.some_beq_some] at hrows
  rw [visible, visible, List.filter_append, List.filter_append, hrows, hdraft]

/-- With the same draft, the same days have a row. -/
theorem existingDates_congr (first last : Date) :
    l₁.existingDates key first last = l₂.existingDates key first last := by
  have hsame := filter_visible hentry hdraft hkey
  have dates (l : Ledger) : l.existingDates key first last =
      ((l.visible.filter fun r => r.key == key).filter fun r =>
        decide (first ≤ r.bar.tradeDate) && decide (r.bar.tradeDate ≤ last)).map
        (·.bar.tradeDate) := by
    rw [existingDates, List.filter_filter]
  rw [dates, dates, hsame]

/-- With the same draft, the same rows are inserted. -/
theorem insert_congr (hopen : l₁.draft.isSome) (bars : List Bar) :
    ∃ rows, l₁.insert key bars = (rows.length, l₁.addRows rows) ∧
      l₂.insert key bars = (rows.length, l₂.addRows rows) := by
  have seen (l : Ledger) (day : Date) : HasBar l.visible key day ↔
      HasBar (l.visible.filter fun r => r.key == key) key day := by
    simp only [HasBar, List.mem_filter, beq_iff_eq, and_assoc, and_self_left]
  have habsent : absentRows l₁.visible key bars = absentRows l₂.visible key bars :=
    absentRows_congr fun day => by rw [seen l₁, seen l₂, filter_visible hentry hdraft hkey]
  refine ⟨absentRows l₁.visible key bars, insert_eq_absentRows hopen, ?_⟩
  rw [habsent]
  exact insert_eq_absentRows (hdraft ▸ hopen)

end Sees

/-! ### Rows under a key -/

/-- The ledger differs by rows under a key in its draft, if at all. -/
def DraftedUnder (key? : Option InstrumentKey) (l l' : Ledger) : Prop :=
  ∃ rows, l' = l.addRows rows ∧ ∀ r ∈ rows, some r.key = key?

theorem drafting_draftedUnder (key? : Option InstrumentKey) : Drafting (DraftedUnder key?) :=
  drafting_draftedOf fun r => some r.key = key?

end DailyBars.Ledger
