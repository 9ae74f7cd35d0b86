import DailyBars.Broker.TokenReply
import DailyBars.Broker.TokenCache
import DailyBars.Proofs.Calendar.SeoulReadings

/-!
# Time that passes

Away from leap seconds instants are ordered as their nanoseconds since the epoch are, and the two
clocks of a session go at the same pace. So a length of time that is measured on the wall clock is
over on the other clock no sooner (`Clock.uptime_lt_of_wall_lt`).
-/

namespace DailyBars

/-! ### Instants -/

namespace Instant

variable {t u : Instant}

/-- An instant that is not within a leap second. -/
def Regular (t : Instant) : Prop := t.nanos < 1000000000

theorem regular_ofNanos (n : Int) : (ofNanos n).Regular := by
  change (n % 1000000000).toNat < 1000000000
  omega

theorem totalNanos_ofNanos (n : Int) : (ofNanos n).totalNanos = n := by
  change n / 1000000000 * 1000000000 + ((n % 1000000000).toNat : Int) = n
  omega

theorem lt_iff_totalNanos_lt (ht : t.Regular) (hu : u.Regular) :
    t < u ↔ t.totalNanos < u.totalNanos := by
  unfold Regular at ht hu
  change t.before u = true ↔ _
  simp only [before, totalNanos, Bool.or_eq_true, Bool.and_eq_true, decide_eq_true_eq]
  omega

theorem since_eq_sub (ht : t.Regular) (hu : u.Regular) :
    t.since u = t.totalNanos - u.totalNanos := by
  unfold Regular at ht hu
  unfold since
  dsimp only
  rw [if_neg (by omega), if_neg (by omega)]

/-- Whole seconds later the fraction of the second is the same, unless a leap second is left. -/
theorem nanos_of_addSeconds? {s : Int} (h : t.addSeconds? s = some u) :
    u.nanos = t.nanos ∧ (t.Regular ∨ s = 0) ∨ u.nanos = t.nanos - 1000000000 := by
  unfold addSeconds? at h
  dsimp only at h
  by_cases hregular : t.nanos < 1000000000
  · rw [if_pos hregular] at h
    obtain ⟨-, h⟩ := Option.ite_none_right_eq_some.mp h
    cases h
    exact .inl ⟨rfl, .inl hregular⟩
  · rw [if_neg hregular] at h
    by_cases hpos : 0 < s
    · rw [if_pos hpos] at h
      obtain ⟨-, h⟩ := Option.ite_none_right_eq_some.mp h
      cases h
      exact .inr rfl
    · rw [if_neg hpos] at h
      by_cases hneg : s < 0
      · rw [if_pos hneg] at h
        obtain ⟨-, h⟩ := Option.ite_none_right_eq_some.mp h
        cases h
        exact .inr rfl
      · rw [if_neg hneg] at h
        obtain ⟨-, h⟩ := Option.ite_none_right_eq_some.mp h
        cases h
        exact .inl ⟨rfl, .inr (by omega)⟩

/-- Going back by whole seconds leads out of a leap second. -/
theorem regular_of_addSeconds? {s : Int} (ht : t.nanos < 2000000000) (hs : s < 0)
    (h : t.addSeconds? s = some u) : u.Regular := by
  unfold Regular
  rcases nanos_of_addSeconds? h with ⟨hu, hregular | rfl⟩ | hu
  · rw [hu]
    exact hregular
  · exact absurd hs (Int.lt_irrefl 0)
  · omega

end Instant

/-! ### The end of a token's life -/

theorem Seoul.nanos_lt_of_single? {r : WallReading} {t : Instant} (h : Seoul.single? r = some t) :
    t.nanos < 2000000000 := by
  have hreading : Seoul.reading? t = some r := (((Seoul.single?_eq_some_iff.mp h) t).mpr rfl).2
  rw [Instant.reading?_eq_some.mp hreading]
  exact r.time.inSecond

namespace TokenReply

theorem nanos_lt_of_expiresAt? {r : TokenReply} {issuedAt t : Instant} (hissued : issuedAt.Regular)
    (h : r.expiresAt? issuedAt = some t) : t.nanos < 2000000000 := by
  unfold expiresAt? at h
  split at h
  · rename_i stamp hstamp
    cases h
    obtain ⟨text, -, htext⟩ := Option.bind_eq_some_iff.mp hstamp
    unfold Seoul.instantOfStamp? at htext
    split at htext
    · cases htext
    · exact Seoul.nanos_lt_of_single? htext
  · obtain ⟨seconds, -, hseconds⟩ := Option.bind_eq_some_iff.mp h
    unfold Instant.Regular at hissued
    rcases Instant.nanos_of_addSeconds? hseconds with ⟨ht, -⟩ | ht <;> omega

/-- A token is never given up within a leap second. -/
theorem regular_of_servedUntil? {r : TokenReply} {issuedAt u : Instant} (hissued : issuedAt.Regular)
    (h : r.servedUntil? issuedAt = some u) : u.Regular := by
  obtain ⟨t, ht, hu⟩ := Option.bind_eq_some_iff.mp h
  exact Instant.regular_of_addSeconds? (nanos_lt_of_expiresAt? hissued ht) (by decide) hu

end TokenReply

/-! ### Clocks -/

namespace Clock

variable {c c' c'' limit : Clock} {u : Instant}

/-- The second clock is the first one some time later. -/
def Later (c c' : Clock) : Prop := ∃ nanos, c' = c.advance nanos

theorem later_advance (c : Clock) (nanos : Nat) : c.Later (c.advance nanos) := ⟨nanos, rfl⟩

theorem Later.refl (c : Clock) : c.Later c := ⟨0, rfl⟩

theorem Later.uptime_le (h : c.Later c') : c.uptime ≤ c'.uptime := by
  obtain ⟨nanos, rfl⟩ := h
  unfold advance
  split
  · exact Nat.le_refl _
  · exact Nat.le_add_right _ _

theorem Later.regular (h : c.Later c') (hc : c.wall.Regular) : c'.wall.Regular := by
  obtain ⟨nanos, rfl⟩ := h
  unfold advance
  split
  · exact hc
  · exact Instant.regular_ofNanos _

/-- The clocks go at the same pace. -/
theorem Later.totalNanos_eq (h : c.Later c') :
    c'.wall.totalNanos = c.wall.totalNanos + (c'.uptime - c.uptime : Nat) := by
  obtain ⟨nanos, rfl⟩ := h
  unfold advance
  split
  · omega
  · change (Instant.ofNanos _).totalNanos = _
    rw [Instant.totalNanos_ofNanos]
    dsimp only
    omega

/-- What the wall clock shows at an uptime, in nanoseconds since the epoch. -/
def nanosAt (c : Clock) (time : Nat) : Int := c.wall.totalNanos + time - c.uptime

theorem nanosAt_uptime (c : Clock) : c.nanosAt c.uptime = c.wall.totalNanos := by
  unfold nanosAt
  omega

/-- The later clock tells the same time at each uptime. -/
theorem Later.nanosAt_eq (h : c.Later c') (time : Nat) : c'.nanosAt time = c.nanosAt time := by
  have hpace := h.totalNanos_eq
  have hle := h.uptime_le
  unfold nanosAt
  omega

theorem Later.trans (h : c.Later c') (h' : c'.Later c'') : c.Later c'' := by
  obtain ⟨m, rfl⟩ := h
  obtain ⟨n, rfl⟩ := h'
  refine ⟨m + n, ?_⟩
  unfold advance
  by_cases hm : m = 0
  · simp [hm]
  · by_cases hn : n = 0
    · simp [hn]
    · have hmn : m + n ≠ 0 := by omega
      simp only [hm, hn, hmn, if_false, Instant.plusNanos, Instant.totalNanos_ofNanos,
        Int.natCast_add, Int.add_assoc, Nat.add_assoc]

/-- As long as the wall clock has not reached an instant, the uptime has not reached it either, as it
is counted from an earlier reading of both. -/
theorem uptime_lt_of_wall_lt (hc : c.wall.Regular) (hu : u.Regular) (hlater : c.Later limit)
    (hbefore : limit.wall < u) : limit.uptime < c.uptime + (u.since c.wall).toNat := by
  have hpace := hlater.totalNanos_eq
  have hle := hlater.uptime_le
  rw [Instant.lt_iff_totalNanos_lt (hlater.regular hc) hu] at hbefore
  rw [Instant.since_eq_sub hu hc]
  omega

/-- What is still to come is a positive length of time away. -/
theorem since_pos_of_wall_lt (hc : c.wall.Regular) (hu : u.Regular) (hlater : c.Later limit)
    (hbefore : limit.wall < u) : 0 < u.since c.wall := by
  have hpace := hlater.totalNanos_eq
  rw [Instant.lt_iff_totalNanos_lt (hlater.regular hc) hu] at hbefore
  rw [Instant.since_eq_sub hu hc]
  omega

/-- What a later clock has not reached the earlier one has not reached. -/
theorem Later.wall_lt (h : c.Later c') (hc : c.wall.Regular) (hu : u.Regular)
    (hbefore : c'.wall < u) : c.wall < u := by
  have hpace := h.totalNanos_eq
  rw [Instant.lt_iff_totalNanos_lt (h.regular hc) hu] at hbefore
  rw [Instant.lt_iff_totalNanos_lt hc hu]
  omega

end Clock

end DailyBars
