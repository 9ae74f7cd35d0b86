import DailyBars.Proofs.Session
import DailyBars.Proofs.Storage.Rows

/-!
# Transactions

A ledger names exactly the days with a row that its open transaction sees, and what is inserted goes
to the draft alone: bars of days without a row one and all, in their order.

A store with transactions keeps what is committed apart from what a transaction has drafted. Between
`begin` and `commit` every call changes the draft alone, whether it succeeds or fails; a commit that
succeeds adds the whole draft at once, one that fails adds nothing. `Attempt.DraftsOn` is what this
says of a single attempt, and it holds of every program that is put together from such attempts.
-/

namespace DailyBars

/-! ### What a ledger answers -/

namespace Ledger

variable {l : Ledger} {key : InstrumentKey} {day first last : Date} {bars : List Bar}
  {rows rows' : List StoredBar}

theorem holds_iff : l.holds key day ↔ HasBar l.visible key day := by
  simp [holds, HasBar, and_comm]

theorem mem_existingDates :
    day ∈ l.existingDates key first last ↔ first ≤ day ∧ day ≤ last ∧ HasBar l.visible key day := by
  simp only [existingDates, HasBar, List.mem_map, List.mem_filter, Bool.and_eq_true,
    decide_eq_true_eq, beq_iff_eq]
  constructor
  · rintro ⟨r, ⟨hr, ⟨hfirst, hlast⟩, hkey⟩, rfl⟩
    exact ⟨hfirst, hlast, r, hr, hkey, rfl⟩
  · rintro ⟨hfirst, hlast, r, hr, hkey, rfl⟩
    exact ⟨r, ⟨hr, ⟨hfirst, hlast⟩, hkey⟩, rfl⟩

/-! ### Inserting -/

/-- The ledger with more rows in its draft. -/
def addRows (l : Ledger) (rows : List StoredBar) : Ledger :=
  { l with draft := l.draft.map fun d => { d with rows := d.rows ++ rows } }

@[simp] theorem addRows_nil (l : Ledger) : l.addRows [] = l := by
  obtain ⟨instruments, committed, draft⟩ := l
  cases draft <;> simp [addRows]

@[simp] theorem addRows_addRows (l : Ledger) (rows rows' : List StoredBar) :
    (l.addRows rows).addRows rows' = l.addRows (rows ++ rows') := by
  simp [addRows, Option.map_map, Function.comp_def]

@[simp] theorem isSome_draft_addRows (l : Ledger) (rows : List StoredBar) :
    (l.addRows rows).draft.isSome = l.draft.isSome := by
  simp [addRows]

theorem visible_addRows (hopen : l.draft.isSome) (rows : List StoredBar) :
    (l.addRows rows).visible = l.visible ++ rows := by
  obtain ⟨d, hd⟩ := Option.isSome_iff_exists.mp hopen
  simp [visible, addRows, hd]

/-- Bars of different days without a row are inserted one and all. -/
theorem insert_eq_addRows (hopen : l.draft.isSome) (distinct : (bars.map (·.tradeDate)).Nodup)
    (missing : ∀ b ∈ bars, ¬ HasBar l.visible key b.tradeDate) :
    l.insert key bars = (bars.length, l.addRows (rowsOf key bars)) := by
  induction bars generalizing l with
  | nil => simp [insert, rowsOf]
  | cons b rest ih =>
      rw [List.map_cons, List.nodup_cons] at distinct
      have hnew : ¬ l.holds key b.tradeDate := by
        rw [holds_iff]
        exact missing b List.mem_cons_self
      have hrest : ∀ c ∈ rest, ¬ HasBar (l.addRows (rowsOf key [b])).visible key c.tradeDate := by
        intro c hc
        rw [visible_addRows hopen, hasBar_append, hasBar_rowsOf]
        rintro (hrow | ⟨-, hday⟩)
        · exact missing c (List.mem_cons_of_mem _ hc) hrow
        · have hday : c.tradeDate = b.tradeDate := by simpa using hday
          exact distinct.1 (List.mem_map.mpr ⟨c, hc, hday⟩)
      have hstep : l.addRow ⟨key, b⟩ = l.addRows (rowsOf key [b]) := rfl
      rw [insert, if_neg hnew, hstep, ih (by simpa using hopen) distinct.2 hrest, addRows_addRows]
      simp [rowsOf]

end Ledger

/-! ### What is committed -/

namespace Ledger

variable {l l' l'' : Ledger} {rows : List StoredBar} {id : Int}

/-- What is committed: the watchlist, with its flags, and the rows. -/
def committed (l : Ledger) : List Instrument × List StoredBar := (l.instruments, l.rows)

@[simp] theorem committed_begin (l : Ledger) : l.begin.committed = l.committed := rfl

@[simp] theorem committed_addRows (l : Ledger) (rows : List StoredBar) :
    (l.addRows rows).committed = l.committed := rfl

@[simp] theorem committed_mark (l : Ledger) (id : Int) : (l.mark id).committed = l.committed := rfl

@[simp] theorem committed_rollback (l : Ledger) : l.rollback.committed = l.committed := rfl

/-- The watchlist with the flags of some instruments set. -/
def flagged (ids : List Int) (instruments : List Instrument) : List Instrument :=
  instruments.map fun i => if ids.contains i.id then { i with backfillCompleted := true } else i

@[simp] theorem flagged_nil (instruments : List Instrument) : flagged [] instruments = instruments := by
  simp [flagged]

theorem flagged_flagged (ids ids' : List Int) (instruments : List Instrument) :
    flagged ids' (flagged ids instruments) = flagged (ids ++ ids') instruments := by
  unfold flagged
  rw [List.map_map]
  refine List.map_congr_left fun i _ => ?_
  by_cases h : i.id ∈ ids <;> by_cases h' : i.id ∈ ids' <;> simp [h, h']

theorem backfillCompleted_of_mem_flagged {instruments : List Instrument} {i : Instrument}
    (h : i ∈ flagged [id] instruments) (hid : i.id = id) : i.backfillCompleted := by
  obtain ⟨j, -, rfl⟩ := List.mem_map.mp h
  by_cases hj : j.id = id
  · simp [hj]
  · simp [hj] at hid

/-- Committing a draft of rows adds them all, and changes no flag. -/
theorem committed_commit_begin_addRows (l : Ledger) (rows : List StoredBar) :
    (l.begin.addRows rows).commit.committed = (l.instruments, l.rows ++ rows) := by
  simp [begin, addRows, commit, committed]

/-- Committing a draft of rows and a flag adds the rows and sets the flag. -/
theorem committed_commit_begin_addRows_mark (l : Ledger) (rows : List StoredBar) (id : Int) :
    ((l.begin.addRows rows).mark id).commit.committed =
      (flagged [id] l.instruments, l.rows ++ rows) := by
  simp [begin, addRows, mark, commit, committed, flagged]

/-- A commit adds the rows of the draft and sets its flags, whatever they are. -/
theorem committed_commit (l : Ledger) :
    l.commit.committed = (flagged ((l.draft.map (·.completed)).getD []) l.instruments,
      l.rows ++ (l.draft.map (·.rows)).getD []) := by
  unfold commit
  cases l.draft with
  | none => simp [committed]
  | some d => rfl

/-- A kind of change to a draft: it is one to change nothing, and several of them are one. What is
committed stays as it is. -/
structure Drafting (change : Ledger → Ledger → Prop) : Prop where
  refl : ∀ l, change l l
  trans : ∀ {l l' l''}, change l l' → change l' l'' → change l l''
  committed_eq : ∀ {l l'}, change l l' → l'.committed = l.committed

/-- The ledger differs by rows in its draft, if at all. -/
def Drafted (l l' : Ledger) : Prop := ∃ rows, l' = l.addRows rows

theorem Drafted.refl (l : Ledger) : l.Drafted l := ⟨[], (addRows_nil l).symm⟩

theorem Drafted.trans (h : l.Drafted l') (h' : l'.Drafted l'') : l.Drafted l'' := by
  obtain ⟨rows, rfl⟩ := h
  obtain ⟨rows', rfl⟩ := h'
  exact ⟨rows ++ rows', addRows_addRows l rows rows'⟩

theorem Drafted.committed_eq (h : l.Drafted l') : l'.committed = l.committed := by
  obtain ⟨rows, rfl⟩ := h
  exact committed_addRows l rows

theorem drafting_drafted : Drafting Drafted := ⟨Drafted.refl, Drafted.trans, Drafted.committed_eq⟩

/-- The ledger differs by rows with a property in its draft, if at all. -/
def DraftedOf (l : Ledger) (P : StoredBar → Prop) (l' : Ledger) : Prop :=
  ∃ rows, l' = l.addRows rows ∧ ∀ r ∈ rows, P r

theorem drafting_draftedOf (P : StoredBar → Prop) : Drafting (DraftedOf · P ·) where
  refl l := ⟨[], (addRows_nil l).symm, by simp⟩
  trans := by
    rintro l _ _ ⟨rows, rfl, hrows⟩ ⟨rows', rfl, hrows'⟩
    refine ⟨rows ++ rows', addRows_addRows l rows rows', fun r hr => ?_⟩
    exact (List.mem_append.mp hr).elim (hrows r) (hrows' r)
  committed_eq := by
    rintro l _ ⟨rows, rfl, -⟩
    exact committed_addRows l rows

theorem DraftedOf.mono {P Q : StoredBar → Prop} (h : l.DraftedOf P l') (hPQ : ∀ r, P r → Q r) :
    l.DraftedOf Q l' := by
  obtain ⟨rows, hrows, hall⟩ := h
  exact ⟨rows, hrows, fun r hr => hPQ r (hall r hr)⟩

/-- To leave the ledger as it is is a kind of change. -/
theorem drafting_eq : Drafting (fun l l' => l' = l) where
  refl _ := rfl
  trans h h' := h'.trans h
  committed_eq h := congrArg committed h

/-- What is inserted are some of the bars, under the key. -/
theorem draftedOf_insert (key : InstrumentKey) (bars : List Bar) (l : Ledger) :
    l.DraftedOf (fun r => r.key = key ∧ r.bar ∈ bars) (l.insert key bars).2 := by
  induction bars generalizing l with
  | nil => exact (drafting_draftedOf _).refl l
  | cons b rest ih =>
      have hrest (l : Ledger) := (ih l).mono fun r hr => (⟨hr.1, List.mem_cons_of_mem b hr.2⟩ :
        r.key = key ∧ r.bar ∈ b :: rest)
      rw [insert]
      split
      · exact hrest l
      · exact (drafting_draftedOf _).trans ⟨[⟨key, b⟩], rfl, by simp⟩ (hrest _)

/-- What is inserted goes to the draft. -/
theorem drafted_insert (key : InstrumentKey) (bars : List Bar) (l : Ledger) :
    l.Drafted (l.insert key bars).2 := by
  obtain ⟨rows, hrows, -⟩ := draftedOf_insert key bars l
  exact ⟨rows, hrows⟩

end Ledger

/-! ### Attempts inside a transaction -/

section Drafts

variable {σ ε ε' α β : Type} {ledger : σ → Ledger}

/-- An attempt that changes the ledger by the relation if it succeeds, and leaves what is committed
as it is if it fails. -/
structure Attempt.ChangesBy (ledger : σ → Ledger) (change : Ledger → Ledger → Prop)
    (x : Attempt σ ε α) : Prop where
  ok : ∀ s a s', x.exec s = (.ok a, s') → change (ledger s.world) (ledger s'.world)
  error : ∀ s e s', x.exec s = (.error e, s') →
    (ledger s'.world).committed = (ledger s.world).committed

/-- An attempt that does to the ledger what `f` does. -/
abbrev Attempt.ActsOn (ledger : σ → Ledger) (f : Ledger → Ledger) (x : Attempt σ ε α) : Prop :=
  ChangesBy ledger (fun l l' => l' = f l) x

/-- An attempt that adds rows to the draft, if anything. -/
abbrev Attempt.DraftsOn (ledger : σ → Ledger) (x : Attempt σ ε α) : Prop :=
  ChangesBy ledger Ledger.Drafted x

namespace Attempt.ChangesBy

variable {change : Ledger → Ledger → Prop} {x : Attempt σ ε α}

theorem committed_eq (h : ChangesBy ledger change x)
    (hchange : ∀ l l', change l l' → l'.committed = l.committed) {s s' : Session σ}
    {r : Except ε α} (hx : x.exec s = (r, s')) :
    (ledger s'.world).committed = (ledger s.world).committed := by
  cases r with
  | ok a => exact hchange _ _ (h.ok s a s' hx)
  | error e => exact h.error s e s' hx

theorem orElseAs (h : ChangesBy ledger change x) (g : ε → ε') :
    ChangesBy ledger change (x.orElseAs g) := by
  refine ⟨?_, ?_⟩
  · intro s a s' hx
    exact h.ok s a s' (Attempt.exec_orElseAs_ok.mp hx)
  · intro s e s' hx
    rw [Attempt.exec_orElseAs] at hx
    rcases hr : x.exec s with ⟨r, s₁⟩
    rw [hr] at hx
    cases r with
    | ok a => cases hx
    | error e₁ =>
        cases hx
        exact h.error s e₁ _ hr

section Drafting

variable {f : α → Attempt σ ε β} (drafting : Ledger.Drafting change)

include drafting

/-- What does not touch the store drafts nothing. -/
theorem ofAct {x : Act σ α} (h : ∀ s, ledger (x.exec s).2.world = ledger s.world) :
    ChangesBy ledger change (Attempt.ofAct x : Attempt σ ε α) := by
  refine ⟨?_, ?_⟩
  · intro s a s' hx
    rw [Attempt.exec_ofAct] at hx
    obtain ⟨-, rfl⟩ := Prod.mk.inj hx
    rw [h s]
    exact drafting.refl _
  · intro s e s' hx
    cases hx

theorem ofResult (r : Except ε α) :
    ChangesBy ledger change (Attempt.ofResult r : Attempt σ ε α) := by
  refine ⟨?_, ?_⟩
  · intro s a s' hx
    cases hx
    exact drafting.refl _
  · intro s e s' hx
    cases hx
    rfl

theorem bind (hx : ChangesBy ledger change x) (hf : ∀ a, ChangesBy ledger change (f a)) :
    ChangesBy ledger change (x >>= f) := by
  refine ⟨?_, ?_⟩
  · intro s b s' h
    obtain ⟨a, s₁, h₁, h₂⟩ := Attempt.exec_bind_eq_ok.mp h
    exact drafting.trans (hx.ok s a s₁ h₁) ((hf a).ok s₁ b s' h₂)
  · intro s e s' h
    rw [Attempt.exec_bind] at h
    rcases hr : x.exec s with ⟨r, s₁⟩
    rw [hr] at h
    cases r with
    | ok a =>
        have hkept := hx.committed_eq (fun _ _ hchange => drafting.committed_eq hchange) hr
        exact ((hf a).error s₁ e s' h).trans hkept
    | error e₁ =>
        cases h
        exact hx.error s e s' hr

/-- What leaves the ledger as it is drafts nothing. -/
theorem ofActsOn_id (h : Attempt.ActsOn ledger id x) : ChangesBy ledger change x := by
  refine ⟨?_, h.error⟩
  intro s a s' hx
  rw [h.ok s a s' hx]
  exact drafting.refl _

end Drafting

end Attempt.ChangesBy

theorem Attempt.DraftsOn.committed_eq {x : Attempt σ ε α} (h : DraftsOn ledger x) {s s' : Session σ}
    {r : Except ε α} (hx : x.exec s = (r, s')) :
    (ledger s'.world).committed = (ledger s.world).committed :=
  ChangesBy.committed_eq h (fun _ _ hdrafted => hdrafted.committed_eq) hx

end Drafts

/-! ### What a store promises -/

/-- A price store with transactions; `ledger` is what it holds in a world. Any call may fail at any
time, and nothing is said of the draft that a failed call leaves behind. -/
structure PriceStore.Transactional {σ : Type} (store : PriceStore σ) (ledger : σ → Ledger) :
    Prop where
  begin : store.begin.ActsOn ledger Ledger.begin
  existingDates : ∀ key first last, (store.existingDates key first last).ActsOn ledger id
  saveAll : ∀ key bars, (store.saveAll key bars).DraftsOn ledger
  markCompleted : ∀ id, (store.markCompleted id).ActsOn ledger (·.mark id)
  commit : store.commit.ActsOn ledger Ledger.commit
  rollback : ∀ s, (ledger (store.rollback.exec s).2.world).committed = (ledger s.world).committed

end DailyBars
