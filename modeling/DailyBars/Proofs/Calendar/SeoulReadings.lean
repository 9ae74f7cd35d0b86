import DailyBars.Calendar.Seoul
import Mathlib.Data.List.Nodup

/-!
# The instants that show a reading

The clock of Seoul has stood at few distances from UTC, and the candidates for a wall reading are found
by trying them all. What is found is what it should be: every instant of the calendar at which the
clock shows the reading (`Seoul.mem_instantsShowing`), and each of them once. So a reading means an
instant exactly if that is the only one at which the clock shows it (`Seoul.single?_eq_some_iff`).

How often a reading is shown is decided by the changes of the clock: where it was put forward readings
are skipped (`Seoul.forall_reading?_ne_iff`), where it was put back they are repeated
(`Seoul.exists_two_reading?_iff`), and the changes are too far apart for a third time.
-/

namespace DailyBars

theorem Date.ofDayNumber?_eq_some {n : Int} {d : Date} :
    Date.ofDayNumber? n = some d ↔ d.dayNumber = n := by
  have := d.inCalendar
  unfold ofDayNumber?
  split <;> simp [Date.ext_iff] <;> omega

/-- What a clock shows at an instant says which instant that is. -/
theorem Instant.reading?_eq_some {t : Instant} {offset : Int} {r : WallReading} :
    t.reading? offset = some r ↔ t = r.instantAt offset := by
  obtain ⟨seconds, nanos⟩ := t
  obtain ⟨date, ⟨time, fraction, htime, hfraction⟩⟩ := r
  unfold reading? WallReading.instantAt WallReading.seconds
  dsimp only
  constructor
  · intro h
    split at h
    · cases h
    · rename_i day hday
      rw [Date.ofDayNumber?_eq_some] at hday
      split at h
      · cases h
        rw [Instant.mk.injEq]
        exact ⟨by omega, rfl⟩
      · cases h
  · intro h
    obtain ⟨hseconds, rfl⟩ := Instant.mk.inj h
    have hday : Date.ofDayNumber? ((seconds + offset) / 86400) = some date := by
      rw [Date.ofDayNumber?_eq_some]
      omega
    have hrest : ((seconds + offset) % 86400).toNat = time := by omega
    simp only [hday, hrest]
    rw [dif_pos ⟨htime, hfraction⟩]

namespace Seoul

variable {r : WallReading} {t : Instant}

/-! ### The offsets -/

/-- What is in force was in force at first, or since one of the eras. -/
theorem inForce_cases (current : Int × String) (s : Int) (list : List Era) :
    inForce current s list = current ∨
      ∃ e ∈ list, e.since ≤ s ∧ inForce current s list = (e.offset, e.name) := by
  induction list generalizing current with
  | nil => exact .inl rfl
  | cons e rest ih =>
      unfold inForce
      split
      · rename_i hsince
        obtain h | ⟨e', he', hsince', h⟩ := ih (e.offset, e.name)
        · exact .inr ⟨e, List.mem_cons_self, hsince, h⟩
        · exact .inr ⟨e', List.mem_cons_of_mem _ he', hsince', h⟩
      · exact .inl rfl

theorem offset_mem_offsets : ∀ e ∈ eras, e.offset ∈ offsets := by decide

/-- The offset at any time is one of those that are tried. -/
theorem offsetAt_mem_offsets (t : Instant) : offsetAt t ∈ offsets := by
  unfold offsetAt zoneAt
  obtain h | ⟨e, he, -, h⟩ := inForce_cases (localMean, "LMT") t.seconds eras
  · rw [h]
    decide
  · rw [h]
    exact offset_mem_offsets e he

/-! ### The instants -/

/-- The instants that are found for a reading are those at which the clock shows it. -/
theorem mem_instantsShowing : t ∈ instantsShowing r ↔ t.inCalendar ∧ reading? t = some r := by
  have hreading : reading? t = some r ↔ t = r.instantAt (offsetAt t) := Instant.reading?_eq_some
  unfold instantsShowing
  rw [List.mem_filterMap, hreading]
  constructor
  · rintro ⟨offset, -, h⟩
    obtain ⟨⟨hoffset, hreach⟩, h⟩ := Option.ite_none_right_eq_some.mp h
    cases h
    exact ⟨hreach, by rw [hoffset]⟩
  · rintro ⟨hreach, ht⟩
    refine ⟨offsetAt t, offsetAt_mem_offsets t, ?_⟩
    dsimp only
    rw [← ht, if_pos ⟨rfl, hreach⟩]

/-- No instant is found twice: the distance to the reading tells with which offset it was found. -/
theorem nodup_instantsShowing (r : WallReading) : (instantsShowing r).Nodup := by
  refine List.Nodup.filterMap ?_ (by decide)
  intro offset offset' t ht ht'
  have h := (Option.ite_none_right_eq_some.mp ht).2
  have h' := (Option.ite_none_right_eq_some.mp ht').2
  have heq : r.instantAt offset = r.instantAt offset' := by
    rw [Option.some.inj h, Option.some.inj h']
  have hseconds : r.seconds - offset = r.seconds - offset' := congrArg Instant.seconds heq
  omega

theorem instantsShowing_of_single? (h : single? r = some t) : instantsShowing r = [t] := by
  unfold single? at h
  split at h
  · rename_i u hu
    cases h
    exact hu
  · cases h

/-- A reading means an instant if this is the only one at which the clock shows it. -/
theorem single?_eq_some_iff :
    single? r = some t ↔ ∀ u, (u.inCalendar ∧ reading? u = some r) ↔ u = t := by
  have hmem : ∀ u, u ∈ instantsShowing r ↔ (u.inCalendar ∧ reading? u = some r) :=
    fun u => mem_instantsShowing
  constructor
  · intro h u
    rw [← hmem, instantsShowing_of_single? h, List.mem_singleton]
  · intro h
    have hperm : (instantsShowing r).Perm [t] := by
      rw [List.perm_ext_iff_of_nodup (nodup_instantsShowing r) (List.nodup_singleton t)]
      intro u
      rw [hmem, h, List.mem_singleton]
    unfold single?
    rw [List.perm_singleton.mp hperm]

/-- In the night of 1988-05-08 the clock of Seoul was put forward from two to three. -/
example : single? ⟨⟨6702, by decide⟩, ⟨9000, 0, by decide, by decide⟩⟩ = none := by decide

/-! ### Where the clock was put forward or back -/

/-- A change of the offset. -/
structure Change where
  since : Int
  before : Int
  after : Int
  deriving DecidableEq

namespace Change

/-- The clock is put forward, and skips the reading. Readings are taken in seconds here. -/
def Skips (c : Change) (shown : Int) : Prop := c.since + c.before ≤ shown ∧ shown < c.since + c.after

/-- The clock is put back, and shows the reading twice. -/
def Repeats (c : Change) (shown : Int) : Prop :=
  c.since + c.after ≤ shown ∧ shown < c.since + c.before

/-- The clock shows the reading before the change only. -/
def Follows (c : Change) (shown : Int) : Prop := shown < c.since + c.before ∧ shown < c.since + c.after

/-- All that the one change skips or repeats is shown before the other. -/
def Precedes (c d : Change) : Prop :=
  c.since < d.since ∧ c.since + c.before ≤ d.since + d.before ∧ c.since + c.before ≤ d.since + d.after ∧
    c.since + c.after ≤ d.since + d.before ∧ c.since + c.after ≤ d.since + d.after

instance (c d : Change) : Decidable (c.Precedes d) := inferInstanceAs (Decidable (_ ∧ _))

variable {c d : Change} {shown : Int}

theorem Precedes.follows (h : c.Precedes d)
    (hshown : shown < c.since + c.before ∨ shown < c.since + c.after) : d.Follows shown := by
  obtain ⟨-, hbefore, hbefore', hafter, hafter'⟩ := h
  unfold Follows
  omega

theorem Follows.not_skips_not_repeats (h : c.Follows shown) : ¬ c.Skips shown ∧ ¬ c.Repeats shown :=
  ⟨fun hskips => Int.not_lt.mpr hskips.1 h.1, fun hrepeats => Int.not_lt.mpr hrepeats.1 h.2⟩

end Change

/-- The changes through some eras from an offset on. -/
def changesFrom (current : Int) : List Era → List Change
  | [] => []
  | e :: rest => ⟨e.since, current, e.offset⟩ :: changesFrom e.offset rest

/-- The changes of the clock of Seoul. -/
def changes : List Change := changesFrom localMean eras

/-- The changes are so far apart that no reading has to do with two of them. -/
theorem pairwise_changes : changes.Pairwise Change.Precedes := by decide +kernel

variable {current : Int × String} {shown s : Int} {list : List Era}

/-- Before all changes there is the first offset. -/
theorem shows_iff_of_follows (h : ∀ c ∈ changesFrom current.1 list, c.Follows shown) :
    s + (inForce current s list).1 = shown ↔ s = shown - current.1 := by
  induction list generalizing current with
  | nil =>
      rw [inForce]
      omega
  | cons e rest ih =>
      obtain ⟨hbefore, hafter⟩ := h _ List.mem_cons_self
      have hrest := @ih (e.offset, e.name) fun c hc => h c (List.mem_cons_of_mem _ hc)
      rw [inForce]
      dsimp only at hbefore hafter hrest
      split
      · rw [hrest]
        omega
      · omega

theorem exists_change {e : Era} (he : e ∈ list) (first : Int) :
    ∃ c ∈ changesFrom first list, c.since = e.since := by
  induction list generalizing first with
  | nil => cases he
  | cons e' rest ih =>
      rcases List.mem_cons.mp he with rfl | he
      · exact ⟨_, List.mem_cons_self, rfl⟩
      · obtain ⟨c, hc, hsince⟩ := ih he e'.offset
        exact ⟨c, List.mem_cons_of_mem _ hc, hsince⟩

/-- The clock shows a reading `shown` at `s` seconds after the epoch. -/
def Shows (current : Int × String) (list : List Era) (shown s : Int) : Prop :=
  s + (inForce current s list).1 = shown

/-- What the clock shows after a change is shown before it, or at no time before it. -/
theorem shows_cons_iff {e : Era} : Shows current (e :: list) shown s ↔
    s < e.since ∧ s + current.1 = shown ∨
      e.since ≤ s ∧ Shows (e.offset, e.name) list shown s := by
  unfold Shows
  rw [inForce]
  split <;> omega

/-- A reading that is not shown before a change is shown after it by what follows. -/
theorem since_le_of_shows {e : Era} (h : Shows (e.offset, e.name) list shown s)
    (hlater : ∀ c ∈ changesFrom e.offset list, e.since < c.since)
    (hshown : e.since + e.offset ≤ shown) : e.since ≤ s := by
  unfold Shows at h
  obtain hfirst | ⟨e', he', hsince, -⟩ := inForce_cases (e.offset, e.name) s list
  · rw [hfirst] at h
    dsimp only at h
    omega
  · obtain ⟨c, hc, heq⟩ := exists_change he' e.offset
    have := hlater c hc
    omega

/-- How often a clock shows a reading that goes through some changes. -/
inductive Shown (cs : List Change) (shown : Int) (Shows : Int → Prop) : Prop
  /-- A change skips the reading, which is not shown. -/
  | skipped : (∃ c ∈ cs, c.Skips shown) → (∀ c ∈ cs, ¬ c.Repeats shown) → (∀ s, ¬ Shows s) →
      Shown cs shown Shows
  /-- A change repeats the reading, which is shown before and after it. -/
  | twice {c : Change} : c ∈ cs → c.Repeats shown → (∀ c ∈ cs, ¬ c.Skips shown) →
      (∀ s, Shows s ↔ s = shown - c.before ∨ s = shown - c.after) → Shown cs shown Shows
  /-- The reading is shown once. -/
  | once {s : Int} : (∀ c ∈ cs, ¬ c.Skips shown ∧ ¬ c.Repeats shown) →
      (∀ s', Shows s' ↔ s' = s) → Shown cs shown Shows

theorem Shown.cons {c : Change} {cs : List Change} {Shows : Int → Prop} (h : Shown cs shown Shows)
    (hc : ¬ c.Skips shown ∧ ¬ c.Repeats shown) : Shown (c :: cs) shown Shows := by
  cases h with
  | skipped hskips hrepeats hnone =>
      obtain ⟨d, hd, hskips⟩ := hskips
      exact .skipped ⟨d, List.mem_cons_of_mem _ hd, hskips⟩
        (List.forall_mem_cons.mpr ⟨hc.2, hrepeats⟩) hnone
  | twice hd hrepeats hskips htwice =>
      exact .twice (List.mem_cons_of_mem _ hd) hrepeats (List.forall_mem_cons.mpr ⟨hc.1, hskips⟩)
        htwice
  | once hnone honce => exact .once (List.forall_mem_cons.mpr ⟨hc, hnone⟩) honce

section Head

variable {e : Era}

/-- What is shown before a change that puts the clock back, and after it, is shown at both times. -/
theorem shown_of_repeats (hfollows : ∀ c ∈ changesFrom e.offset list, c.Follows shown)
    (h : Change.Repeats ⟨e.since, current.1, e.offset⟩ shown) :
    Shown (changesFrom current.1 (e :: list)) shown (Shows current (e :: list) shown) := by
  obtain ⟨hafter, hbefore⟩ := h
  refine .twice List.mem_cons_self ⟨hafter, hbefore⟩ ?_ fun s => ?_
  · exact List.forall_mem_cons.mpr ⟨fun hskips => Int.not_lt.mpr hskips.1 hbefore,
      fun c hc => (hfollows c hc).not_skips_not_repeats.1⟩
  · have hrest : Shows (e.offset, e.name) list shown s ↔ s = shown - e.offset :=
      shows_iff_of_follows hfollows
    rw [shows_cons_iff, hrest]
    dsimp only at hafter hbefore ⊢
    omega

/-- What is shown neither before a change that puts the clock forward nor after it is not shown. -/
theorem shown_of_skips (hfollows : ∀ c ∈ changesFrom e.offset list, c.Follows shown)
    (h : Change.Skips ⟨e.since, current.1, e.offset⟩ shown) :
    Shown (changesFrom current.1 (e :: list)) shown (Shows current (e :: list) shown) := by
  obtain ⟨hbefore, hafter⟩ := h
  refine .skipped ⟨_, List.mem_cons_self, hbefore, hafter⟩ ?_ fun s => ?_
  · exact List.forall_mem_cons.mpr ⟨fun hrepeats => Int.not_lt.mpr hrepeats.1 hafter,
      fun c hc => (hfollows c hc).not_skips_not_repeats.2⟩
  · have hrest : Shows (e.offset, e.name) list shown s ↔ s = shown - e.offset :=
      shows_iff_of_follows hfollows
    rw [shows_cons_iff, hrest]
    dsimp only at hafter hbefore
    omega

/-- When a change is over, what follows decides. -/
theorem shows_cons_eq (hlater : ∀ c ∈ changesFrom e.offset list, e.since < c.since)
    (hbefore : e.since + current.1 ≤ shown) (hafter : e.since + e.offset ≤ shown) :
    Shows current (e :: list) shown = Shows (e.offset, e.name) list shown := by
  funext s
  rw [eq_iff_iff, shows_cons_iff]
  constructor
  · rintro (⟨hs, hshows⟩ | ⟨-, hshows⟩)
    · omega
    · exact hshows
  · intro hshows
    exact .inr ⟨since_le_of_shows hshows hlater hafter, hshows⟩

end Head

/-- Through changes that are far enough apart, a reading is skipped, repeated or shown once. -/
theorem shown_of_pairwise (list : List Era) (current : Int × String) (shown : Int)
    (h : (changesFrom current.1 list).Pairwise Change.Precedes) :
    Shown (changesFrom current.1 list) shown (Shows current list shown) := by
  induction list generalizing current with
  | nil =>
      exact .once (by simp [changesFrom]) fun s => shows_iff_of_follows (by simp [changesFrom])
  | cons e rest ih =>
      obtain ⟨hlater, hpairwise⟩ := List.pairwise_cons.mp h
      by_cases hbefore : shown < e.since + current.1 <;>
        by_cases hafter : shown < e.since + e.offset
      · -- The reading is shown before the change.
        have hall : ∀ c ∈ changesFrom current.1 (e :: rest), c.Follows shown :=
          List.forall_mem_cons.mpr
            ⟨⟨hbefore, hafter⟩, fun c hc => (hlater c hc).follows (.inl hbefore)⟩
        exact .once (fun c hc => (hall c hc).not_skips_not_repeats) fun s =>
          shows_iff_of_follows hall
      · exact shown_of_repeats (fun c hc => (hlater c hc).follows (.inl hbefore))
          ⟨Int.not_lt.mp hafter, hbefore⟩
      · exact shown_of_skips (fun c hc => (hlater c hc).follows (.inr hafter))
          ⟨Int.not_lt.mp hbefore, hafter⟩
      · rw [shows_cons_eq (fun c hc => (hlater c hc).1) (Int.not_lt.mp hbefore)
          (Int.not_lt.mp hafter)]
        exact (ih (e.offset, e.name) hpairwise).cons
          ⟨fun hskips => hafter hskips.2, fun hrepeats => hbefore hrepeats.2⟩

theorem reading?_eq_some_iff_shows : reading? t = some r ↔
    Shows (localMean, "LMT") eras r.seconds t.seconds ∧ t.nanos = r.time.nanos := by
  have hreading : reading? t = some r ↔ t = r.instantAt (offsetAt t) := Instant.reading?_eq_some
  obtain ⟨seconds, nanos⟩ := t
  rw [hreading, WallReading.instantAt, Instant.mk.injEq]
  refine and_congr ?_ Iff.rfl
  change _ ↔ seconds + offsetAt ⟨seconds, nanos⟩ = r.seconds
  omega

/-- How often the clock of Seoul shows a reading is told by its changes. -/
theorem shown_reading (r : WallReading) :
    Shown changes r.seconds fun s => reading? ⟨s, r.time.nanos⟩ = some r := by
  have hshows : (fun s => reading? ⟨s, r.time.nanos⟩ = some r) =
      Shows (localMean, "LMT") eras r.seconds := by
    funext s
    rw [eq_iff_iff, reading?_eq_some_iff_shows, and_iff_left rfl]
  rw [hshows]
  exact shown_of_pairwise eras (localMean, "LMT") r.seconds pairwise_changes

/-- An instant that shows a reading has its fraction of a second. -/
theorem eq_mk_of_reading? (h : reading? t = some r) : t = ⟨t.seconds, r.time.nanos⟩ := by
  rw [← (reading?_eq_some_iff_shows.mp h).2]

/-- No instant shows a reading exactly if the clock was put forward over it. -/
theorem forall_reading?_ne_iff :
    (∀ t, reading? t ≠ some r) ↔ ∃ c ∈ changes, c.Skips r.seconds := by
  cases shown_reading r with
  | skipped hskips _ hnone =>
      refine iff_of_true (fun t ht => hnone t.seconds ?_) hskips
      rwa [← eq_mk_of_reading? ht]
  | @twice c _ _ hskips htwice =>
      refine iff_of_false (fun hnone => ?_) fun ⟨c, hc, h⟩ => hskips c hc h
      exact hnone ⟨r.seconds - c.before, _⟩ ((htwice _).mpr (.inl rfl))
  | @once s hnone honce =>
      refine iff_of_false (fun hshows => ?_) fun ⟨c, hc, h⟩ => (hnone c hc).1 h
      exact hshows ⟨s, _⟩ ((honce s).mpr rfl)

/-- Two instants show a reading exactly if the clock was put back over it. -/
theorem exists_two_reading?_iff :
    (∃ t u, t ≠ u ∧ reading? t = some r ∧ reading? u = some r) ↔
      ∃ c ∈ changes, c.Repeats r.seconds := by
  cases shown_reading r with
  | skipped _ hrepeats hnone =>
      refine iff_of_false (fun ⟨t, u, _, ht, _⟩ => hnone t.seconds ?_) fun ⟨c, hc, h⟩ =>
        hrepeats c hc h
      rwa [← eq_mk_of_reading? ht]
  | @twice c hc hrepeats _ htwice =>
      refine iff_of_true ⟨⟨r.seconds - c.before, _⟩, ⟨r.seconds - c.after, _⟩, fun heq => ?_,
        (htwice _).mpr (.inl rfl), (htwice _).mpr (.inr rfl)⟩ ⟨c, hc, hrepeats⟩
      obtain ⟨hafter, hbefore⟩ := hrepeats
      have hseconds := congrArg Instant.seconds heq
      dsimp only at hseconds
      omega
  | @once s hnone honce =>
      have hsame {t : Instant} (ht : reading? t = some r) : t = ⟨s, r.time.nanos⟩ := by
        have hmk := eq_mk_of_reading? ht
        rw [hmk] at ht
        rw [hmk, (honce _).mp ht]
      exact iff_of_false (fun ⟨t, u, hne, ht, hu⟩ => hne ((hsame ht).trans (hsame hu).symm))
        fun ⟨c, hc, h⟩ => (hnone c hc).2 h

end Seoul

end DailyBars
