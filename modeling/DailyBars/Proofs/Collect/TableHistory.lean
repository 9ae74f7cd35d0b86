import DailyBars.Proofs.Collect.LockHistory
import DailyBars.Proofs.Storage.LocalTable

/-!
# What the table of the locks knows of what has happened

The entry of a name is that of the last run that acquired the lock, and expires when the run no longer
keeps others from it. A run that gives back a lock that was taken over is not the last one, so its
token is not found; and no run gives its lock back twice.
-/

namespace DailyBars

/-- What the table of the locks knows of what has happened. -/
structure TableSound (plan : LockPlan) (now : Nat) (t : LocalLocks) (locks : Nat → Option RunLock)
    (es : List LockEvent) : Prop where
  issued : ∀ i l, locks i = some l → t.Issued l.token
  /-- An entry is that of the last run that acquired the lock. -/
  entry : ∀ name h, t.find? name = some h → t.Issued h.token ∧
    ∃ a, plan.lastTaker es name = some a ∧ h.expiresAt = plan.keptUntil es a ∧
      ∀ i l, locks i = some l → (l.token = h.token ↔ i = a.run)
  /-- Without an entry the lock was given back, and nobody is kept from it. -/
  gone : ∀ name a, t.find? name = none → plan.lastTaker es name = some a →
    Happened es a.run .released ∧ plan.keptUntil es a ≤ now

namespace LockPlan

variable {plan : LockPlan} {es : List LockEvent} {a e : LockEvent} {name : String}

theorem lastTaker_cons_of_takes (h : plan.takes name e) : plan.lastTaker (e :: es) name = some e :=
  List.find?_cons_of_pos h

theorem lastTaker_cons_of_not_takes (h : ¬ plan.takes name e) :
    plan.lastTaker (e :: es) name = plan.lastTaker es name := List.find?_cons_of_neg h

/-- What happens to others makes no difference to how long a run keeps others from its lock. -/
theorem keptUntil_cons (h : e.run = a.run → e.what ≠ .released) :
    plan.keptUntil (e :: es) a = plan.keptUntil es a := by
  have hreleased : Happened (e :: es) a.run .released ↔ Happened es a.run .released := by
    simp only [happened_cons, or_iff_right_iff_imp, and_imp]
    exact fun hrun hwhat => absurd hwhat (h hrun)
  simp only [keptUntil, hreleased]

end LockPlan

namespace TableSound

variable {plan : LockPlan} {now later : Nat} {t : LocalLocks} {locks locks' : Nat → Option RunLock}
  {es : List LockEvent} {e : LockEvent} {name : String} {i : Nat} {l : RunLock}

/-- An entry is live while the last run that acquired the lock keeps others from it. -/
theorem taken_iff (h : TableSound plan now t locks es) (name : String) :
    plan.Taken es name now ↔ (t.live? now name).isSome := by
  cases hfind : t.find? name with
  | none =>
      have hlive : t.live? now name = none := by simp [LocalLocks.live?, hfind]
      simp only [hlive, Option.isSome_none, Bool.false_eq_true, iff_false]
      rintro ⟨a, hlast, hlt⟩
      exact absurd (h.gone name a hfind hlast).2 (Nat.not_le.mpr hlt)
  | some e =>
      obtain ⟨-, a, hlast, hexpires, -⟩ := h.entry name e hfind
      by_cases hlt : now < e.expiresAt
      · simp only [LocalLocks.live?_of_lt hfind hlt, Option.isSome_some, iff_true]
        exact ⟨a, hlast, hexpires ▸ hlt⟩
      · simp only [LocalLocks.live?_of_le hfind (Nat.not_lt.mp hlt), Option.isSome_none,
          Bool.false_eq_true, iff_false]
        rintro ⟨b, hlast', hlt'⟩
        cases hlast.symm.trans hlast'
        exact hlt (hexpires ▸ hlt')

theorem pass (h : TableSound plan now t locks es) (hle : now ≤ later) :
    TableSound plan later t locks es where
  issued := h.issued
  entry := h.entry
  gone name a hfind hlast :=
    ⟨(h.gone name a hfind hlast).1, Nat.le_trans (h.gone name a hfind hlast).2 hle⟩

/-- Something happens by which no lock is acquired or given back. -/
theorem quiet (h : TableSound plan now t locks es) (hacquired : e.what ≠ .acquired)
    (hreleased : e.what ≠ .released) {u : LocalLocks} (hfind : ∀ name, u.find? name = t.find? name)
    (hissued : t.issued ≤ u.issued) (hlocks : ∀ j k, locks' j = some k → locks j = some k) :
    TableSound plan now u locks' (e :: es) := by
  have hlast : ∀ name, plan.lastTaker (e :: es) name = plan.lastTaker es name := fun name =>
    LockPlan.lastTaker_cons_of_not_takes fun htakes =>
      hacquired (LockPlan.takes_iff.mp htakes).1
  have hkept : ∀ a, plan.keptUntil (e :: es) a = plan.keptUntil es a := fun a =>
    LockPlan.keptUntil_cons fun _ => hreleased
  constructor
  case issued => exact fun j k hk => (h.issued j k (hlocks j k hk)).mono hissued
  case entry =>
    intro name x hx
    obtain ⟨hgiven, a, ha, hexpires, hown⟩ := h.entry name x ((hfind name).symm.trans hx)
    exact ⟨hgiven.mono hissued, a, (hlast name).trans ha, (hkept a).symm ▸ hexpires,
      fun j k hk => hown j k (hlocks j k hk)⟩
  case gone =>
    intro name a hx ha
    obtain ⟨hreleased', hover⟩ :=
      h.gone name a ((hfind name).symm.trans hx) ((hlast name).symm.trans ha)
    exact ⟨hreleased'.mono (List.subset_cons_self _ _), (hkept a).symm ▸ hover⟩

/-- A run that had no lock yet acquires one. -/
theorem acquire (h : TableSound plan now t locks es) (hnew : eventsOf es i = [])
    (hlocks : ∀ j l, locks' j = some l → j ≠ i ∧ locks j = some l ∨ j = i ∧ l.token = t.nextToken) :
    TableSound plan now
      { t.insert ⟨plan.name i, t.nextToken, now + (plan.terms i).atMost⟩ with
        issued := t.issued + 1 } locks' (⟨i, now, .acquired⟩ :: es) := by
  let e : LockEvent := ⟨i, now, .acquired⟩
  have hnothing : ∀ what, ¬ Happened es i what := by
    intro what hwhat
    simp [happened_iff_mem_eventsOf, hnew] at hwhat
  have hkept : ∀ a, plan.keptUntil (e :: es) a = plan.keptUntil es a := fun a =>
    LockPlan.keptUntil_cons fun _ => by simp [e]
  have hother : ∀ name, name ≠ plan.name i →
      plan.lastTaker (e :: es) name = plan.lastTaker es name := fun name hname =>
    LockPlan.lastTaker_cons_of_not_takes fun htakes =>
      hname (LockPlan.takes_iff.mp htakes).2.symm
  have hself : plan.lastTaker (e :: es) (plan.name i) = some e :=
    LockPlan.lastTaker_cons_of_takes (LockPlan.takes_iff.mpr ⟨rfl, rfl⟩)
  constructor
  case issued =>
    intro j l hl
    obtain ⟨-, hl⟩ | ⟨-, htoken⟩ := hlocks j l hl
    · exact (h.issued j l hl).mono (Nat.le_succ _)
    · rw [htoken]
      exact LocalLocks.issued_nextToken rfl
  case entry =>
    intro name x hfind
    change (t.insert _).find? name = some x at hfind
    rw [LocalLocks.find?_insert] at hfind
    split at hfind
    · -- The new entry.
      rename_i hname
      obtain rfl := Option.some.inj hfind
      obtain rfl : name = plan.name i := hname
      refine ⟨LocalLocks.issued_nextToken rfl, e, hself, ?_, ?_⟩
      · simp [LockPlan.keptUntil, hnothing, e]
      · intro j l hl
        obtain ⟨hj, hl⟩ | ⟨hj, htoken⟩ := hlocks j l hl
        · have hne : l.token ≠ t.nextToken := fun heq =>
            t.not_issued_nextToken (heq ▸ h.issued j l hl)
          simp [hne, hj, e]
        · simp [htoken, hj, e]
    · -- The entries of other names.
      rename_i hname
      obtain ⟨hissued, a, hlast, hexpires, hown⟩ := h.entry name x hfind
      refine ⟨hissued.mono (Nat.le_succ _), a, (hother name hname).trans hlast,
        (hkept a).symm ▸ hexpires, ?_⟩
      intro j l hl
      obtain ⟨-, hl⟩ | ⟨rfl, htoken⟩ := hlocks j l hl
      · exact hown j l hl
      · have hne : t.nextToken ≠ x.token := fun heq => t.not_issued_nextToken (heq ▸ hissued)
        have hrun : j ≠ a.run := by
          rintro rfl
          exact hnothing a.what ⟨a, List.mem_of_find?_eq_some hlast, rfl, rfl⟩
        simp [htoken, hne, hrun]
  case gone =>
    intro name a hfind hlast
    change (t.insert _).find? name = none at hfind
    rw [LocalLocks.find?_insert] at hfind
    split at hfind
    · cases hfind
    · rename_i hname
      obtain ⟨hreleased, hover⟩ := h.gone name a hfind ((hother name hname).symm.trans hlast)
      exact ⟨hreleased.mono (List.subset_cons_self _ _), (hkept a).symm ▸ hover⟩

/-- A run that has its lock and gives it back. -/
structure GivesBack (plan : LockPlan) (now : Nat) (locks : Nat → Option RunLock)
    (es : List LockEvent) (i : Nat) (l : RunLock) : Prop where
  lock : locks i = some l
  name : l.name = plan.name i
  atLeast : l.atLeast = (plan.terms i).atLeast
  events : ∃ stop, eventsOf es i = [⟨i, stop, .ended⟩, ⟨i, l.acquiredAt, .acquired⟩]
  acquiredAt_le : l.acquiredAt ≤ now

namespace GivesBack

variable {a : LockEvent}

theorem not_released (h : GivesBack plan now locks es i l) : ¬ Happened es i .released := by
  obtain ⟨stop, hevents⟩ := h.events
  simp [happened_iff_mem_eventsOf, hevents]

/-- The run acquired its lock once. -/
theorem eq_of_lastTaker (h : GivesBack plan now locks es i l)
    (hlast : plan.lastTaker es name = some a) (hrun : a.run = i) :
    a = ⟨i, l.acquiredAt, .acquired⟩ := by
  obtain ⟨stop, hevents⟩ := h.events
  have hmem : a ∈ eventsOf es i :=
    List.mem_filter.mpr ⟨List.mem_of_find?_eq_some hlast, by simpa using hrun⟩
  have hwhat : a.what = .acquired := (LockPlan.takes_iff.mp (List.find?_some hlast)).1
  rw [hevents] at hmem
  obtain rfl | hmem := List.mem_cons.mp hmem
  · cases hwhat
  · exact List.mem_singleton.mp hmem

/-- The run acquired no lock of another name. -/
theorem run_ne (h : GivesBack plan now locks es i l) (hlast : plan.lastTaker es name = some a)
    (hname : name ≠ l.name) : a.run ≠ i := by
  rintro rfl
  exact hname ((LockPlan.takes_iff.mp (List.find?_some hlast)).2.symm.trans h.name.symm)

/-- From now on the run keeps others from its lock for the least of its time. -/
theorem keptUntil_eq (h : GivesBack plan now locks es i l)
    (hlast : plan.lastTaker es name = some a) (hrun : a.run = i) :
    plan.keptUntil (⟨i, now, .released⟩ :: es) a = l.acquiredAt + l.atLeast := by
  rw [h.eq_of_lastTaker hlast hrun, h.atLeast]
  simp [LockPlan.keptUntil]

end GivesBack

theorem lastTaker_released (plan : LockPlan) (es : List LockEvent) (i now : Nat) (name : String) :
    plan.lastTaker (⟨i, now, .released⟩ :: es) name = plan.lastTaker es name :=
  LockPlan.lastTaker_cons_of_not_takes (by simp [LockPlan.takes])

theorem keptUntil_released {a : LockEvent} (hrun : a.run ≠ i) :
    plan.keptUntil (⟨i, now, .released⟩ :: es) a = plan.keptUntil es a :=
  LockPlan.keptUntil_cons fun heq => absurd heq.symm hrun

/-- What is known of the entry of another run stays known. -/
theorem entry_released (h : TableSound plan now t locks es)
    (hlocks : ∀ j k, locks' j = some k → j ≠ i ∧ locks j = some k) {x : HeldLock}
    (hfind : t.find? name = some x)
    (hother : ∀ a, plan.lastTaker es name = some a → a.run ≠ i) :
    t.Issued x.token ∧ ∃ a, plan.lastTaker (⟨i, now, .released⟩ :: es) name = some a ∧
      x.expiresAt = plan.keptUntil (⟨i, now, .released⟩ :: es) a ∧
        ∀ j k, locks' j = some k → (k.token = x.token ↔ j = a.run) := by
  obtain ⟨hissued, a, ha, hexpires, hown⟩ := h.entry name x hfind
  refine ⟨hissued, a, (lastTaker_released plan es i now name).trans ha, ?_, ?_⟩
  · rw [keptUntil_released (hother a ha)]
    exact hexpires
  · exact fun j k hk => hown j k (hlocks j k hk).2

/-- So does what is known of a name without an entry. -/
theorem gone_released (h : TableSound plan now t locks es)
    (hback : GivesBack plan now locks es i l) {a : LockEvent} (hfind : t.find? name = none)
    (hlast : plan.lastTaker (⟨i, now, .released⟩ :: es) name = some a) :
    Happened (⟨i, now, .released⟩ :: es) a.run .released ∧
      plan.keptUntil (⟨i, now, .released⟩ :: es) a ≤ now := by
  rw [lastTaker_released] at hlast
  obtain ⟨hreleased, hover⟩ := h.gone name a hfind hlast
  have hne : a.run ≠ i := by
    rintro rfl
    exact hback.not_released hreleased
  rw [keptUntil_released hne]
  exact ⟨hreleased.mono (List.subset_cons_self _ _), hover⟩

/-- The run whose token the entry has is the last one that acquired the lock. -/
theorem owner_of_token (h : TableSound plan now t locks es)
    (hback : GivesBack plan now locks es i l) {x : HeldLock} (hfind : t.find? l.name = some x)
    (htoken : x.token = l.token) : ∃ a, plan.lastTaker es l.name = some a ∧ a.run = i := by
  obtain ⟨-, a, ha, -, hmine⟩ := h.entry l.name x hfind
  exact ⟨a, ha, ((hmine i l hback.lock).mp htoken.symm).symm⟩

/-- A run gives its lock back when the least time is over: the entry is gone. -/
theorem release_over (h : TableSound plan now t locks es) (hback : GivesBack plan now locks es i l)
    (hlocks : ∀ j k, locks' j = some k → j ≠ i ∧ locks j = some k) {a : LockEvent}
    (hlast : plan.lastTaker es l.name = some a) (hrun : a.run = i)
    (hover : l.acquiredAt + l.atLeast ≤ now) :
    TableSound plan now (t.erase l.name) locks' (⟨i, now, .released⟩ :: es) := by
  constructor
  case issued => exact fun j k hk => h.issued j k (hlocks j k hk).2
  case entry =>
    intro name x hfind
    rw [LocalLocks.find?_erase] at hfind
    split at hfind
    · cases hfind
    · rename_i hne
      exact h.entry_released hlocks hfind fun b hb => hback.run_ne hb hne
  case gone =>
    intro name b hfind hb
    rw [LocalLocks.find?_erase] at hfind
    split at hfind
    · rename_i heq
      rw [heq, lastTaker_released] at hb
      cases hlast.symm.trans hb
      rw [hback.keptUntil_eq hlast hrun]
      exact ⟨by simp [hrun], hover⟩
    · exact h.gone_released hback hfind hb

/-- A run gives its lock back before the least time is over: the entry is kept for the rest of it. -/
theorem release_kept (h : TableSound plan now t locks es) (hback : GivesBack plan now locks es i l)
    (hlocks : ∀ j k, locks' j = some k → j ≠ i ∧ locks j = some k) {a : LockEvent}
    (hlast : plan.lastTaker es l.name = some a) (hrun : a.run = i) {x : HeldLock}
    (hfind : t.find? l.name = some x)
    (htoken : x.token = l.token) {stop : Nat} (hstop : stop = l.acquiredAt + l.atLeast) :
    TableSound plan now (t.insert ⟨l.name, l.token, stop⟩) locks' (⟨i, now, .released⟩ :: es) := by
  constructor
  case issued => exact fun j k hk => h.issued j k (hlocks j k hk).2
  case entry =>
    intro name y hy
    rw [LocalLocks.find?_insert] at hy
    split at hy
    · rename_i heq
      obtain rfl := Option.some.inj hy
      obtain rfl : name = l.name := heq
      refine ⟨h.issued i l hback.lock, a, (lastTaker_released plan es i now _).trans hlast, ?_, ?_⟩
      · rw [hback.keptUntil_eq hlast hrun]
        exact hstop
      · intro j k hk
        obtain ⟨-, b, hb, -, hmine⟩ := h.entry l.name x hfind
        cases hlast.symm.trans hb
        rw [← hmine j k (hlocks j k hk).2, htoken]
    · rename_i hne
      exact h.entry_released hlocks hy fun b hb => hback.run_ne hb hne
  case gone =>
    intro name b hy hb
    rw [LocalLocks.find?_insert] at hy
    split at hy
    · cases hy
    · exact h.gone_released hback hy hb

/-- A run breaks off when the entry is its own and no clock can show when its least time is over. -/
theorem release_of_overreaches (h : TableSound plan now t locks es)
    (hback : GivesBack plan now locks es i l)
    (hover : plan.Overreaches es i l.acquiredAt now) :
    t.release now l = (.error .beyondClock, t) := by
  obtain ⟨hlast, hleast, hbeyond⟩ := hover
  rw [← hback.name] at hlast
  cases hfind : t.find? l.name with
  | none => exact absurd (h.gone _ _ hfind hlast).1 hback.not_released
  | some x =>
      obtain ⟨-, a, ha, -, hmine⟩ := h.entry _ _ hfind
      obtain rfl := Option.some.inj (hlast.symm.trans ha)
      have htoken : x.token = l.token := ((hmine i l hback.lock).mpr rfl).symm
      have hle := hback.acquiredAt_le
      have hterms := hback.atLeast
      rw [t.release_of_token now hfind htoken, RunLock.remainingHold_eq, if_neg (by omega)]
      exact if_pos (by omega)

/-- A run gives its lock back. -/
theorem release (h : TableSound plan now t locks es) (hback : GivesBack plan now locks es i l)
    (hlocks : ∀ j k, locks' j = some k → j ≠ i ∧ locks j = some k)
    (hover : ¬ plan.Overreaches es i l.acquiredAt now) :
    ∃ u, t.release now l = (.ok (), u) ∧
      TableSound plan now u locks' (⟨i, now, .released⟩ :: es) := by
  by_cases hown : ∃ x, t.find? l.name = some x ∧ x.token = l.token
  · obtain ⟨x, hfind, htoken⟩ := hown
    obtain ⟨a, hlast, hrun⟩ := h.owner_of_token hback hfind htoken
    have hle := hback.acquiredAt_le
    rw [t.release_of_token now hfind htoken, RunLock.remainingHold_eq]
    by_cases hdone : l.acquiredAt + l.atLeast ≤ now ∨ l.atLeast = 0
    · rw [if_pos hdone]
      exact ⟨_, rfl, h.release_over hback hlocks hlast hrun (by omega)⟩
    · rw [if_neg hdone]
      have ha : a = ⟨i, l.acquiredAt, .acquired⟩ := hback.eq_of_lastTaker hlast hrun
      have hshown : l.acquiredAt + l.atLeast ≤ Clock.lastUptime := by
        by_contra hbeyond
        refine hover ⟨by rw [← hback.name, hlast, ha], ?_, ?_⟩ <;> rw [← hback.atLeast] <;> omega
      refine ⟨_, if_neg (by omega), ?_⟩
      exact h.release_kept hback hlocks hlast hrun hfind htoken (by omega)
  · -- Somebody else has the lock by now, or nobody.
    have hother : ∀ x, t.find? l.name = some x → x.token ≠ l.token :=
      fun x hfind htoken => hown ⟨x, hfind, htoken⟩
    refine ⟨t, t.release_of_no_token now hother, ?_⟩
    constructor
    case issued => exact fun j k hk => h.issued j k (hlocks j k hk).2
    case entry =>
      intro name x hfind
      refine h.entry_released hlocks hfind ?_
      rintro a ha rfl
      have hname : name = l.name := by_contra fun hne => hback.run_ne ha hne rfl
      obtain ⟨-, b, hb, -, hmine⟩ := h.entry name x hfind
      cases ha.symm.trans hb
      exact hother x (hname ▸ hfind) ((hmine a.run l hback.lock).mpr rfl).symm
    case gone => exact fun name a hfind ha => h.gone_released hback hfind ha

end TableSound

end DailyBars
