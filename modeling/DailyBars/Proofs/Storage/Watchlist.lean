import DailyBars.Proofs.Storage.Transaction
import Mathlib.Algebra.Group.Int.Defs
import Mathlib.Data.List.Sort

/-!
# Paging through a watchlist

A watchlist is paged by id: a page is cut from the instruments with a completion flag whose ids come
after a cursor, the instruments that are due. What is due after the last id of a page is what is due
and not on the page. Flags are set on the way and never taken back, but a flag that is set for an
instrument up to the cursor changes nothing in what is due after it.
-/

namespace DailyBars.Ledger

variable {instruments instruments' now : List Instrument} {completed : Bool} {after : Option Int}
  {limit : Nat} {i j : Instrument} {ids : List Int}

/-! ### Flags -/

theorem mem_flagged :
    j ∈ flagged ids instruments ↔
      ∃ i ∈ instruments, (if i.id ∈ ids then { i with backfillCompleted := true } else i) = j := by
  simp [flagged]

/-- Setting flags changes no id. -/
@[simp] theorem map_id_flagged (ids : List Int) (instruments : List Instrument) :
    (flagged ids instruments).map (·.id) = instruments.map (·.id) := by
  rw [flagged, List.map_map]
  refine List.map_congr_left fun i _ => ?_
  dsimp only [Function.comp_apply]
  split <;> rfl

/-- An instrument that is complete stays as it is when flags are set. -/
theorem mem_flagged_of_completed (h : i ∈ instruments) (hflag : i.backfillCompleted = true) :
    i ∈ flagged ids instruments := by
  refine mem_flagged.mpr ⟨i, h, ?_⟩
  split
  · rw [← hflag]
  · rfl

/-- An instrument that is not complete after flags were set is as it was before. -/
theorem mem_of_mem_flagged (h : i ∈ flagged ids instruments) (hflag : i.backfillCompleted = false) :
    i ∈ instruments := by
  obtain ⟨j, hj, rfl⟩ := mem_flagged.mp h
  split at hflag
  · cases hflag
  · rename_i hnot
    rwa [if_neg hnot]

/-- An instrument whose flag is not among those that are set is the same before and after. -/
theorem mem_flagged_of_not_mem (hid : i.id ∉ ids) :
    i ∈ flagged ids instruments ↔ i ∈ instruments := by
  rw [mem_flagged]
  constructor
  · rintro ⟨j, hj, rfl⟩
    split at hid
    · rename_i hset
      exact absurd hset hid
    · rename_i hnot
      rwa [if_neg hnot]
  · exact fun h => ⟨i, h, if_neg hid⟩

/-- Flags were set, and none was taken back. -/
def Completes (instruments instruments' : List Instrument) : Prop :=
  ∃ ids, instruments' = flagged ids instruments

theorem Completes.refl (instruments : List Instrument) : Completes instruments instruments :=
  ⟨[], (flagged_nil instruments).symm⟩

theorem Completes.trans (h : Completes instruments now) (h' : Completes now instruments') :
    Completes instruments instruments' := by
  obtain ⟨ids, rfl⟩ := h
  obtain ⟨ids', rfl⟩ := h'
  exact ⟨ids ++ ids', flagged_flagged ids ids' instruments⟩

theorem Completes.map_id (h : Completes instruments instruments') :
    instruments'.map (·.id) = instruments.map (·.id) := by
  obtain ⟨ids, rfl⟩ := h
  exact map_id_flagged ids instruments

/-- What is the same before and after some flags were set is the same at any time between. -/
theorem Completes.mem_between (h : Completes instruments now) (h' : Completes now instruments')
    (hbefore : i ∈ instruments) (hafter : i ∈ instruments') : i ∈ now := by
  obtain ⟨ids, rfl⟩ := h
  obtain ⟨ids', rfl⟩ := h'
  cases hflag : i.backfillCompleted with
  | false => exact mem_of_mem_flagged hafter hflag
  | true => exact mem_flagged_of_completed hbefore hflag

/-- Between two times with the same flags no flag was set. -/
theorem Completes.mem_iff (h : Completes instruments now) (h' : Completes now instruments) :
    i ∈ now ↔ i ∈ instruments := by
  refine ⟨fun hnow => ?_, fun hi => h.mem_between h' hi hi⟩
  cases hflag : i.backfillCompleted with
  | false =>
      obtain ⟨ids, rfl⟩ := h
      exact mem_of_mem_flagged hnow hflag
  | true =>
      obtain ⟨ids', hids⟩ := h'
      rw [hids]
      exact mem_flagged_of_completed hnow hflag

/-- A commit sets flags. -/
theorem completes_commit (l : Ledger) : Completes l.instruments l.commit.instruments := by
  unfold commit
  split
  · exact Completes.refl _
  · rename_i d _
    exact ⟨d.completed, rfl⟩

/-! ### What is due -/

/-- A watchlist as a store keeps it: no id is given twice, and each is an integer of 64 bits. -/
structure Listed (instruments : List Instrument) : Prop where
  nodup : (instruments.map (·.id)).Nodup
  bounded : ∀ id ∈ instruments.map (·.id), -2 ^ 63 ≤ id ∧ id < 2 ^ 63

theorem Listed.completes (h : Listed instruments) (hcompletes : Completes instruments instruments') :
    Listed instruments' := by
  obtain ⟨hnodup, hbounded⟩ := h
  rw [← hcompletes.map_id] at hnodup hbounded
  exact ⟨hnodup, hbounded⟩

/-- The instruments that are due after a cursor, by id. -/
def due (instruments : List Instrument) (completed : Bool) (after : Option Int) : List Instrument :=
  (instruments.filter fun i =>
    i.backfillCompleted == completed && after.all (· < i.id)).mergeSort fun i j => i.id ≤ j.id

/-- A page holds the first instruments that are due. -/
theorem findPage_eq_take (l : Ledger) (completed : Bool) (after : Option Int) (limit : Nat) :
    l.findPage completed after limit = (due l.instruments completed after).take limit := rfl

theorem mem_due :
    i ∈ due instruments completed after ↔
      i ∈ instruments ∧ i.backfillCompleted = completed ∧ ∀ a ∈ after, a < i.id := by
  cases after <;> simp [due]

/-- What is due comes in ascending order, each id once. -/
theorem pairwise_due (nodup : (instruments.map (·.id)).Nodup) (completed : Bool)
    (after : Option Int) : (due instruments completed after).Pairwise (·.id < ·.id) := by
  have hsorted : (due instruments completed after).Pairwise fun i j => decide (i.id ≤ j.id) := by
    refine List.pairwise_mergeSort ?_ ?_ _
    · intro i j k hij hjk
      simp only [decide_eq_true_eq] at hij hjk ⊢
      exact Int.le_trans hij hjk
    · intro i j
      simpa using Int.le_total i.id j.id
  have hdistinct : ((due instruments completed after).map (·.id)).Nodup :=
    ((List.mergeSort_perm _ _).map _).nodup_iff.mpr (nodup.sublist (List.filter_sublist.map _))
  refine (hsorted.and (List.pairwise_map.mp hdistinct)).imp fun h => ?_
  exact Int.lt_iff_le_and_ne.mpr ⟨by simpa using h.1, h.2⟩

/-- Instruments in ascending order are known by which they are. -/
theorem eq_of_ascending (h : instruments.Pairwise (·.id < ·.id))
    (h' : instruments'.Pairwise (·.id < ·.id)) (hmem : ∀ i, i ∈ instruments ↔ i ∈ instruments') :
    instruments = instruments' := by
  have nodup {l : List Instrument} (hl : l.Pairwise (·.id < ·.id)) : l.Nodup :=
    hl.imp fun hlt heq => absurd (heq ▸ hlt) (Int.lt_irrefl _)
  refine ((List.perm_ext_iff_of_nodup (nodup h) (nodup h')).mpr hmem).eq_of_pairwise ?_ h h'
  intro i j _ _ hij hji
  exact absurd (Int.lt_trans hij hji) (Int.lt_irrefl _)

/-- What is due depends only on the instruments after the cursor. -/
theorem due_congr (nodup : (instruments.map (·.id)).Nodup)
    (nodup' : (instruments'.map (·.id)).Nodup)
    (hmem : ∀ i, (∀ a ∈ after, a < i.id) → (i ∈ instruments ↔ i ∈ instruments')) :
    due instruments completed after = due instruments' completed after := by
  refine eq_of_ascending (pairwise_due nodup _ _) (pairwise_due nodup' _ _) fun i => ?_
  rw [mem_due, mem_due]
  constructor
  · exact fun ⟨hi, hflag, hafter⟩ => ⟨(hmem i hafter).mp hi, hflag, hafter⟩
  · exact fun ⟨hi, hflag, hafter⟩ => ⟨(hmem i hafter).mpr hi, hflag, hafter⟩

/-- Flags of instruments up to the cursor have no say in what is due after it. -/
theorem due_flagged {a : Int} (nodup : (instruments.map (·.id)).Nodup) (hids : ∀ id ∈ ids, id ≤ a) :
    due (flagged ids instruments) completed (some a) = due instruments completed (some a) := by
  refine due_congr (by rwa [map_id_flagged]) nodup fun i hafter => ?_
  refine mem_flagged_of_not_mem fun hid => ?_
  exact absurd (hafter a rfl) (Int.not_lt.mpr (hids i.id hid))

/-! ### A page of what is due -/

section Page

variable {page : List Instrument} {z : Instrument}

/-- A page that is not full holds all that is due. -/
theorem due_eq_of_length_lt (hpage : page = (due instruments completed after).take limit)
    (hshort : page.length < limit) : due instruments completed after = page := by
  rw [hpage, List.length_take] at hshort
  rw [hpage, List.take_of_length_le (Nat.le_of_lt (by omega))]

/-- No instrument of a page comes after its last one. -/
theorem id_le_of_mem_page (ascending : page.Pairwise (·.id < ·.id)) (hlast : page.getLast? = some z)
    (hi : i ∈ page) : i.id ≤ z.id := by
  obtain ⟨front, rfl⟩ := List.getLast?_eq_some_iff.mp hlast
  rcases List.mem_append.mp hi with hi | hi
  · exact Int.le_of_lt ((List.pairwise_append.mp ascending).2.2 i hi z (List.mem_singleton.mpr rfl))
  · rw [List.mem_singleton.mp hi]

/-- **What is due after a page** is what was due and is not on the page. -/
theorem due_last (nodup : (instruments.map (·.id)).Nodup)
    (hpage : page = (due instruments completed after).take limit)
    (hlast : page.getLast? = some z) :
    due instruments completed after = page ++ due instruments completed (some z.id) := by
  have hsorted := pairwise_due nodup completed after
  have hsplit : due instruments completed after =
      page ++ (due instruments completed after).drop limit := by
    rw [hpage, List.take_append_drop]
  have hz : z ∈ due instruments completed after := by
    rw [hsplit]
    exact List.mem_append_left _ (List.mem_of_getLast? hlast)
  rw [hsplit] at hsorted
  obtain ⟨hascending, hrest, hbefore⟩ := List.pairwise_append.mp hsorted
  have hdrop : (due instruments completed after).drop limit =
      due instruments completed (some z.id) := by
    refine eq_of_ascending hrest (pairwise_due nodup _ _) fun i => ?_
    rw [mem_due]
    constructor
    · intro hi
      obtain ⟨hmem, hflag, -⟩ := mem_due.mp (List.mem_of_mem_drop hi)
      refine ⟨hmem, hflag, fun a ha => ?_⟩
      rw [← Option.mem_some_iff.mp ha]
      exact hbefore z (List.mem_of_getLast? hlast) i hi
    · rintro ⟨hmem, hflag, hafter⟩
      have hlt : z.id < i.id := hafter z.id rfl
      have hdue : i ∈ due instruments completed after :=
        mem_due.mpr ⟨hmem, hflag, fun a ha => Int.lt_trans ((mem_due.mp hz).2.2 a ha) hlt⟩
      rw [hsplit] at hdue
      rcases List.mem_append.mp hdue with hon | hi
      · exact absurd (id_le_of_mem_page hascending hlast hon) (Int.not_le.mpr hlt)
      · exact hi
  rw [hdrop] at hsplit
  exact hsplit

end Page

end DailyBars.Ledger
