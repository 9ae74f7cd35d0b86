import DailyBars.Proofs.Broker.TokenRuns

/-!
# The end of a token's life

A reply of the issuer says when its token ends: as a reading of the clock of Seoul, if that means one
instant, or else by a number of seconds (`TokenReply.Ends`). A token is kept until five minutes before
its end, and only if that is still to come. No reply makes a call fail by what it says of the end: the
token is given to the caller in any case (`TokenCache.refreshes`).
-/

namespace DailyBars

/-! ### Whole seconds later, and earlier -/

namespace Instant

variable {t u now : Instant} {s : Int}

theorem addSeconds?_eq_some (ht : t.Regular) :
    t.addSeconds? s = some u ↔ u = ⟨t.seconds + s, t.nanos⟩ ∧ u.inCalendar := by
  unfold Regular at ht
  unfold addSeconds?
  dsimp only
  rw [if_pos ht, Option.ite_none_right_eq_some]
  constructor
  · rintro ⟨hreach, h⟩
    cases h
    exact ⟨rfl, hreach⟩
  · rintro ⟨rfl, hreach⟩
    exact ⟨hreach, rfl⟩

/-- What is found going back, from within a leap second too. -/
theorem addSeconds?_of_neg (hs : s < 0) (h : t.addSeconds? s = some u) :
    u.totalNanos = t.totalNanos + s * 1000000000 := by
  unfold addSeconds? at h
  dsimp only at h
  obtain ⟨-, h⟩ := Option.ite_none_right_eq_some.mp h
  cases h
  unfold totalNanos
  by_cases ht : t.nanos < 1000000000
  · rw [if_pos ht]
    dsimp only
    omega
  · rw [if_neg ht, if_neg (by omega), if_pos hs]
    dsimp only
    omega

/-- One can go back as far as to an instant of the calendar. -/
theorem exists_addSeconds?_of_neg (ht : t.nanos < 2000000000) (htreach : t.inCalendar) (hs : s < 0)
    (hnow : now.Regular) (hreach : now.inCalendar)
    (hle : now.totalNanos ≤ t.totalNanos + s * 1000000000) : ∃ u, t.addSeconds? s = some u := by
  unfold inCalendar at htreach hreach
  unfold Regular at hnow
  unfold totalNanos at hle
  simp only [Bool.and_eq_true, decide_eq_true_eq] at htreach hreach
  unfold addSeconds?
  dsimp only
  refine ⟨_, if_pos ?_⟩
  unfold inCalendar
  simp only [Bool.and_eq_true, decide_eq_true_eq]
  by_cases hregular : t.nanos < 1000000000
  · rw [if_pos hregular]
    dsimp only
    omega
  · rw [if_neg hregular, if_neg (by omega), if_pos hs]
    dsimp only
    omega

end Instant

/-! ### When a token ends -/

namespace TokenReply

variable {r : TokenReply} {issuedAt now E u : Instant}

/-- The text of a reply is what the clock of Seoul shows at one instant of the calendar only. -/
def Told (r : TokenReply) (E : Instant) : Prop :=
  ∃ text shown, r.expiry = some text ∧ WallReading.ofStamp (Text.trim text) = .ok shown ∧
    ∀ t, (t.inCalendar ∧ Seoul.reading? t = some shown) ↔ t = E

/-- A token that was asked for at an instant ends when the text of the reply says. If this says
nothing, it ends a number of seconds after it was asked for, as long as the calendar reaches so far. -/
def Ends (r : TokenReply) (issuedAt E : Instant) : Prop :=
  r.Told E ∨ (∀ t, ¬ r.Told t) ∧ ∃ life, r.lifetime = some life ∧
    E = ⟨issuedAt.seconds + life, issuedAt.nanos⟩ ∧ E.inCalendar

/-- The time for which a token is not served any more, in nanoseconds. -/
def fiveMinutes : Int := 5 * 60 * 1000000000

/-- At an instant more than five minutes are left until the end of the token. -/
def Lasts (r : TokenReply) (issuedAt now E : Instant) : Prop :=
  r.Ends issuedAt E ∧ now.totalNanos + fiveMinutes < E.totalNanos

theorem told_iff : r.expiry.bind Seoul.instantOfStamp? = some E ↔ r.Told E := by
  rw [Option.bind_eq_some_iff]
  constructor
  · rintro ⟨text, htext, h⟩
    unfold Seoul.instantOfStamp? at h
    split at h
    · cases h
    · rename_i shown hshown
      exact ⟨text, shown, htext, hshown, Seoul.single?_eq_some_iff.mp h⟩
  · rintro ⟨text, shown, htext, hshown, h⟩
    refine ⟨text, htext, ?_⟩
    unfold Seoul.instantOfStamp?
    rw [hshown]
    exact Seoul.single?_eq_some_iff.mpr h

/-- The end that is found for a token is the end of the token. -/
theorem expiresAt?_eq_some_iff (hissued : issuedAt.Regular) :
    r.expiresAt? issuedAt = some E ↔ r.Ends issuedAt E := by
  unfold expiresAt? Ends
  cases htold : r.expiry.bind Seoul.instantOfStamp? with
  | some t =>
      have ht : r.Told t := told_iff.mp htold
      dsimp only
      constructor
      · rintro ⟨⟩
        exact .inl ht
      · rintro (h | ⟨hnone, -⟩)
        · exact htold.symm.trans (told_iff.mpr h)
        · exact absurd ht (hnone t)
  | none =>
      have hnone : ∀ t, ¬ r.Told t := fun t ht => by
        rw [told_iff.mpr ht] at htold
        cases htold
      simp only [Option.bind_eq_some_iff, Instant.addSeconds?_eq_some hissued]
      exact ⟨fun h => .inr ⟨hnone, h⟩, fun h => (h.resolve_left (hnone E)).2⟩

theorem Ends.inCalendar (h : r.Ends issuedAt E) : E.inCalendar := by
  obtain ⟨text, shown, -, -, honly⟩ | ⟨-, life, -, -, hreach⟩ := h
  · exact ((honly E).mpr rfl).1
  · exact hreach

/-- A token has at most one end. -/
theorem Ends.unique {E' : Instant} (hissued : issuedAt.Regular) (h : r.Ends issuedAt E)
    (h' : r.Ends issuedAt E') : E = E' :=
  Option.some.inj (((expiresAt?_eq_some_iff hissued).mpr h).symm.trans
    ((expiresAt?_eq_some_iff hissued).mpr h'))

/-- A token is served, from an instant on, until five minutes before its end. -/
structure Leaves (now E u : Instant) (ttl : Nat) : Prop where
  regular : u.Regular
  served : u.totalNanos = E.totalNanos - fiveMinutes
  left : (ttl : Int) = E.totalNanos - fiveMinutes - now.totalNanos

/-- The instant until which a token is served, if that is still to come. -/
def stillServed? (r : TokenReply) (issuedAt now : Instant) : Option Instant :=
  (r.servedUntil? issuedAt).filter fun u => decide (0 < u.since now)

theorem lasts_of_stillServed? (hissued : issuedAt.Regular) (hnow : now.Regular)
    (h : r.stillServed? issuedAt now = some u) :
    ∃ E, r.Lasts issuedAt now E ∧ Leaves now E u (u.since now).toNat := by
  obtain ⟨hserved, hpos⟩ := Option.filter_eq_some_iff.mp h
  obtain ⟨E, hE, hu⟩ := Option.bind_eq_some_iff.mp hserved
  have hregular : u.Regular := regular_of_servedUntil? hissued hserved
  have hback : u.totalNanos = E.totalNanos - fiveMinutes := Instant.addSeconds?_of_neg (by decide) hu
  rw [decide_eq_true_eq, Instant.since_eq_sub hregular hnow] at hpos
  refine ⟨E, ⟨(expiresAt?_eq_some_iff hissued).mp hE, by omega⟩, hregular, hback, ?_⟩
  rw [Instant.since_eq_sub hregular hnow]
  omega

theorem exists_stillServed? (hissued : issuedAt.Regular) (hnow : now.Regular)
    (hreach : now.inCalendar) (h : r.Lasts issuedAt now E) :
    ∃ u, r.stillServed? issuedAt now = some u ∧ Leaves now E u (u.since now).toNat := by
  obtain ⟨hends, hlater⟩ := h
  have hE := (expiresAt?_eq_some_iff hissued).mpr hends
  -- Five minutes before the end the calendar has not ended, as it has not ended now.
  obtain ⟨u, hu⟩ := Instant.exists_addSeconds?_of_neg (s := -margin)
    (nanos_lt_of_expiresAt? hissued hE) hends.inCalendar (by decide) hnow hreach
    (by unfold fiveMinutes at hlater; unfold margin; omega)
  have hserved : r.servedUntil? issuedAt = some u := Option.bind_eq_some_iff.mpr ⟨E, hE, hu⟩
  have hregular : u.Regular := regular_of_servedUntil? hissued hserved
  have hback : u.totalNanos = E.totalNanos - fiveMinutes := Instant.addSeconds?_of_neg (by decide) hu
  have hsince : u.since now = E.totalNanos - fiveMinutes - now.totalNanos := by
    rw [Instant.since_eq_sub hregular hnow, hback]
  refine ⟨u, Option.filter_eq_some_iff.mpr ⟨hserved, ?_⟩, hregular, hback, ?_⟩
  · rw [decide_eq_true_eq, hsince]
    omega
  · rw [hsince]
    omega

end TokenReply

/-! ### What a call makes of a reply -/

namespace TokenCache

open TokenReply (Lasts Leaves)

variable {σ : Type} {r : TokenReply} {issuedAt now E u : Instant} {token : String} {ttl : Nat}
  {reply : Except BrokerError (Option TokenReply)}

theorem weighed_of_token? (htoken : r.token? = some token) :
    weighed issuedAt now (.ok (some r)) =
      match r.stillServed? issuedAt now with
      | some u => .keeping token u (u.since now).toNat
      | none => .releasing (.ok token) := by
  unfold weighed
  dsimp only
  rw [htoken]
  rfl

/-- A call that has weighed an answer keeps a token, or it lets the lock go. -/
theorem weighed_cases (issuedAt now : Instant) (reply : Except BrokerError (Option TokenReply)) :
    (∃ result, weighed issuedAt now reply = .releasing result) ∨
      ∃ token u ttl, weighed issuedAt now reply = .keeping token u ttl := by
  unfold weighed
  split
  · exact .inl ⟨_, rfl⟩
  · exact .inl ⟨_, rfl⟩
  · split
    · exact .inl ⟨_, rfl⟩
    · split
      · exact .inr ⟨_, _, _, rfl⟩
      · exact .inl ⟨_, rfl⟩

/-- A token that lasts is kept. -/
theorem weighed_of_lasts (hissued : issuedAt.Regular) (hnow : now.Regular)
    (hreach : now.inCalendar) (htoken : r.token? = some token) (h : r.Lasts issuedAt now E) :
    ∃ u ttl, Leaves now E u ttl ∧
      weighed issuedAt now (.ok (some r)) = .keeping token u ttl := by
  obtain ⟨u, hu, hleaves⟩ := TokenReply.exists_stillServed? hissued hnow hreach h
  exact ⟨u, _, hleaves, by rw [weighed_of_token? htoken, hu]⟩

/-- A token that does not last is only given to the caller. -/
theorem weighed_of_not_lasts (hissued : issuedAt.Regular) (hnow : now.Regular)
    (htoken : r.token? = some token) (h : ∀ E, ¬ r.Lasts issuedAt now E) :
    weighed issuedAt now (.ok (some r)) = .releasing (.ok token) := by
  rw [weighed_of_token? htoken]
  cases hserved : r.stillServed? issuedAt now with
  | none => rfl
  | some u =>
      obtain ⟨E, hlasts, -⟩ := TokenReply.lasts_of_stillServed? hissued hnow hserved
      exact absurd hlasts (h E)

/-- A token that is kept lasts. -/
theorem lasts_of_weighed (hissued : issuedAt.Regular) (hnow : now.Regular)
    (h : weighed issuedAt now reply = .keeping token u ttl) :
    ∃ r E, reply = .ok (some r) ∧ r.token? = some token ∧ r.Lasts issuedAt now E ∧
      Leaves now E u ttl := by
  cases reply with
  | error e => cases h
  | ok reply => cases reply with
    | none => cases h
    | some r =>
        cases htoken : r.token? with
        | none => simp [weighed, htoken] at h
        | some token' =>
            rw [weighed_of_token? htoken] at h
            split at h
            · rename_i u' hserved
              cases h
              obtain ⟨E, hlasts, hleaves⟩ := TokenReply.lasts_of_stillServed? hissued hnow hserved
              exact ⟨r, E, rfl, htoken, hlasts, hleaves⟩
            · cases h

variable (t : TokenCache σ) (c : TokenCall)

/-- Keeps a token in the process and in the store. -/
def keepToken (token : String) (validUntil : Instant) (ttl : Nat) : Act σ Unit := do
  Act.onPart t.desk fun d => ((), d.keep c.hash ⟨token, validUntil⟩)
  t.write c token ttl

/-- Lets the lock of the account go. -/
def letGo : Act σ Unit :=
  Act.onPart t.desk fun d => ((), { d with locks := d.locks.release c.hash })

/-- What becomes of a call that was answered by the issuer. The session in which it weighs the answer
has its own clock, for the issuer may take its time; what was logged makes no difference. -/
structure Refreshes (issuedAt : Instant) (r : TokenReply) (s : Session σ)
    (last : TokenStage × Session σ) : Prop where
  /-- The call fails only for want of a token. -/
  result : last.1 = .done (match r.token? with
    | some token => .ok token
    | none => .error (.unauthorized "토큰 발급 응답에 access_token이 없습니다"))
  /-- A token that ends in more than five minutes is kept until five minutes before its end, in the
  process and in the store. -/
  keeps : ∀ token E, r.token? = some token → r.Lasts issuedAt s.clock.wall E →
    ∃ u ttl log, Leaves s.clock.wall E u ttl ∧
      last.2 = (Act.exec (do t.keepToken c token u ttl; t.letGo c) { s with log := log }).2
  /-- Nothing else is kept. -/
  drops : (∀ token E, r.token? = some token → ¬ r.Lasts issuedAt s.clock.wall E) →
    ∃ log, last.2 = (Act.exec (t.letGo c) { s with log := log }).2

theorem exec_finish_succ (n : Nat) (stage : TokenStage) (s : Session σ)
    (h : ∀ result, stage ≠ .done result) :
    Act.exec (t.finish c (n + 1) stage) s =
      Act.exec (t.finish c n (Act.exec (t.step c stage) s).1) (Act.exec (t.step c stage) s).2 := by
  rw [finish_succ t c n h, Act.exec_bind]

theorem exec_finish_done (n : Nat) (result : Except BrokerError String) (s : Session σ) :
    Act.exec (t.finish c n (.done result)) s = (.done result, s) := by
  cases n <;> rfl

theorem exec_finish_releasing (n : Nat) (result : Except BrokerError String) (s : Session σ) :
    Act.exec (t.finish c (n + 1) (.releasing result)) s =
      (.done result, (Act.exec (t.letGo c) s).2) := by
  rw [exec_finish_succ t c n (.releasing result) s nofun]
  exact exec_finish_done t c n result _

theorem exec_finish_keeping (n : Nat) (token : String) (u : Instant) (ttl : Nat) (s : Session σ) :
    Act.exec (t.finish c (n + 3) (.keeping token u ttl)) s =
      (.done (.ok token), (Act.exec (do t.keepToken c token u ttl; t.letGo c) s).2) := by
  rw [exec_finish_succ t c (n + 2) (.keeping token u ttl) s nofun]
  change Act.exec (t.finish c (n + 2) (.writing token ttl)) _ = _
  rw [exec_finish_succ t c (n + 1) (.writing token ttl) _ nofun]
  exact exec_finish_releasing t c n (.ok token) _

/-- A call that is not answered by the issuer with an error comes to its end, and it keeps the token
exactly if that has more than five minutes left. -/
theorem refreshes {s s' : Session σ} (hissuer : (t.issuer c.account).exec s = (.ok (some r), s'))
    (hissued : s.clock.wall.Regular) (hnow : s'.clock.wall.Regular)
    (hreach : s'.clock.wall.inCalendar) :
    t.Refreshes c s.clock.wall r s' (Act.exec (t.finish c 5 .issuing) s) := by
  have hasked : Act.exec (t.step c .issuing) s =
      (.weighing s.clock.wall (.ok (some r)), s') := by
    change (TokenStage.weighing s.clock.wall ((t.issuer c.account).exec s).1,
      ((t.issuer c.account).exec s).2) = _
    rw [hissuer]
  obtain ⟨log, hweighed⟩ := exec_weigh_session c s.clock.wall (.ok (some r)) s'
  have hstart : Act.exec (t.finish c 5 .issuing) s =
      Act.exec (t.finish c 3 (weighed s.clock.wall s'.clock.wall (.ok (some r))))
        { s' with log := log } := by
    rw [exec_finish_succ t c 4 .issuing s nofun, hasked]
    dsimp only
    rw [exec_finish_succ t c 3 (.weighing s.clock.wall (.ok (some r))) s' nofun]
    change Act.exec (t.finish c 3 (Act.exec (weigh c s.clock.wall (.ok (some r))) s').1)
      (Act.exec (weigh c s.clock.wall (.ok (some r))) s').2 = _
    rw [hweighed]
  rw [hstart]
  cases htoken : r.token? with
  | none =>
      have hfails : weighed s.clock.wall s'.clock.wall (.ok (some r)) =
          .releasing (.error (.unauthorized "토큰 발급 응답에 access_token이 없습니다")) := by
        unfold weighed
        dsimp only
        rw [htoken]
      rw [hfails, exec_finish_releasing]
      refine ⟨by rw [htoken], ?_, fun _ => ⟨log, rfl⟩⟩
      intro token E htoken'
      cases htoken.symm.trans htoken'
  | some token =>
      by_cases hlasts : ∃ E, r.Lasts s.clock.wall s'.clock.wall E
      · obtain ⟨E, hlasts⟩ := hlasts
        obtain ⟨u, ttl, hleaves, hkeeping⟩ := weighed_of_lasts hissued hnow hreach htoken hlasts
        rw [hkeeping, exec_finish_keeping]
        refine ⟨by rw [htoken], ?_, fun hnone => absurd hlasts (hnone token E htoken)⟩
        intro token' E' htoken' hlasts'
        obtain rfl := Option.some.inj (htoken.symm.trans htoken')
        obtain rfl := hlasts.1.unique hissued hlasts'.1
        exact ⟨u, ttl, log, hleaves, rfl⟩
      · have hnone : ∀ E, ¬ r.Lasts s.clock.wall s'.clock.wall E := fun E hE => hlasts ⟨E, hE⟩
        rw [weighed_of_not_lasts hissued hnow htoken hnone, exec_finish_releasing]
        exact ⟨by rw [htoken], fun _ E _ hE => absurd hE (hnone E), fun _ => ⟨log, rfl⟩⟩

end TokenCache

end DailyBars
