import DailyBars.Proofs.Storage.LocalTable
import DailyBars.Proofs.Storage.ServerLocks

/-!
# The locks of a process are those that processes share

Locks are asked for and given back in any order, each of them as often as one likes and however late.
Whether a lock is granted is then the same for the table of one process and for a server, although the
table keeps entries that have expired and looks at their tokens only, while the server forgets them.

What the two have in common is what is live (`SameTables`). An entry that has expired and is given
back makes no difference: the least time of a lock is over when the lock expires.
-/

namespace DailyBars

variable {σ τ : Type}

/-! ### Locks in use -/

/-- What is done with locks. -/
inductive LockCall where
  /-- Time passes. -/
  | wait (nanos : Nat)
  | acquire (name : String) (terms : LockTerms)
  /-- The lock of an earlier request is given back, the requests counted from the first; nothing is
  done if it was not granted. -/
  | release (request : Nat)

/-- A session in which locks are used, with the answers to the requests so far. -/
structure LockUse (σ : Type) where
  session : Session σ
  answers : List (Except LockError (Option RunLock))

namespace LockUse

/-- The lock that a request was granted. -/
def granted? (u : LockUse σ) (request : Nat) : Option RunLock :=
  match u.answers[request]? with
  | some (.ok lock) => lock
  | _ => none

/-- Makes one call. -/
def make (locks : RunLocks σ) (u : LockUse σ) : LockCall → LockUse σ
  | .wait nanos => { u with session := (Act.exec (Act.pass nanos) u.session).2 }
  | .acquire name terms =>
    let r := (locks.tryAcquire name terms.atMost terms.atLeast).exec u.session
    ⟨r.2, u.answers ++ [r.1]⟩
  | .release request =>
    match u.granted? request with
    | some lock => { u with session := ((locks.release lock).exec u.session).2 }
    | none => u

/-- Makes calls one after the other, in a session in which no lock was asked for yet. -/
def makeAll (locks : RunLocks σ) (calls : List LockCall) (s : Session σ) : LockUse σ :=
  calls.foldl (make locks) ⟨s, []⟩

/-- Whether each request was granted. -/
def grants (u : LockUse σ) : List (Except LockError Bool) := u.answers.map (·.map (·.isSome))

end LockUse

/-- Times of whole milliseconds. -/
def LockCall.WholeMillis : LockCall → Prop
  | .wait nanos => ∃ n, nanos = n * 1000000
  | .acquire _ terms => terms.WholeMillis
  | .release _ => True

/-- Times of whole milliseconds that a number of 64 bits can count. -/
def LockCall.Countable : LockCall → Prop
  | .wait nanos => ∃ n, nanos = n * 1000000
  | .acquire _ terms => terms.Countable
  | .release _ => True

/-- A clock can show until when each lock that is asked for may be held, if the first of the calls is
made at a given uptime. -/
def LockCall.AllReach : (now : Nat) → List LockCall → Prop
  | _, [] => True
  | now, .wait nanos :: rest => AllReach (now + nanos) rest
  | now, .acquire _ terms :: rest =>
    now + terms.atMost ≤ Clock.lastUptime ∧ AllReach now rest
  | now, .release _ :: rest => AllReach now rest

theorem LockTerms.countable_iff (terms : LockTerms) :
    terms.Countable ↔ 0 < terms.atMost ∧ terms.atMost % 1000000 = 0 ∧ terms.atLeast % 1000000 = 0 ∧
      terms.atLeast ≤ terms.atMost ∧ terms.atMost < UInt64.size * 1000000 := by
  constructor
  · rintro ⟨⟨⟨n, hn, hmost⟩, ⟨m, hleast⟩, hle⟩, hlt⟩
    exact ⟨by omega, by omega, by omega, hle, hlt⟩
  · rintro ⟨hpos, hmost, hleast, hle, hlt⟩
    exact ⟨⟨⟨terms.atMost / 1000000, by omega, by omega⟩, ⟨terms.atLeast / 1000000, by omega⟩, hle⟩,
      hlt⟩

instance (c : LockCall) : Decidable c.Countable :=
  match c with
  | .wait nanos => decidable_of_iff (nanos % 1000000 = 0)
      ⟨fun h => ⟨nanos / 1000000, by omega⟩, fun ⟨n, hn⟩ => by omega⟩
  | .acquire _ terms => decidable_of_iff _ terms.countable_iff.symm
  | .release _ => .isTrue trivial

/-! ### The same locks on both sides -/

/-- A lock of the process and the one of the server that were given for the same request, if any. -/
abbrev LockPair := Option (RunLock × RunLock)

/-- An entry of the table and a key of the server that stand for the two locks of one request. -/
def SameHold (pairs : List LockPair) (h : HeldLock) (k : RedisKey) : Prop :=
  k.expiresAt = h.expiresAt ∧ ∃ l r, some (l, r) ∈ pairs ∧ l.token = h.token ∧ r.token = k.value

/-- From a given time on the same locks are live in the table and at the server. -/
structure SameTables (key : String → String) (pairs : List LockPair) (now : Nat) (t : LocalLocks)
    (s : RedisKeys) : Prop where
  live : ∀ time, now ≤ time → ∀ name,
    Option.Rel (SameHold pairs) (t.live? time name) (s.find? time (key name))
  /-- No entry expires before the least time of its lock is over. -/
  least : ∀ name h, t.find? name = some h →
    ∃ l r, some (l, r) ∈ pairs ∧ l.token = h.token ∧ l.acquiredAt + l.atLeast ≤ h.expiresAt

namespace SameTables

variable {key : String → String} {pairs pairs' : List LockPair} {now now' : Nat} {t : LocalLocks}
  {s : RedisKeys} {l r : RunLock}

theorem mono (h : SameTables key pairs now t s) (hnow : now ≤ now') (hpairs : pairs ⊆ pairs') :
    SameTables key pairs' now' t s where
  live time htime name := by
    have hrel := h.live time (Nat.le_trans hnow htime) name
    generalize t.live? time name = a at hrel ⊢
    generalize s.find? time (key name) = b at hrel ⊢
    cases hrel with
    | none => exact .none
    | some hsame =>
        obtain ⟨hexpires, l, r, hmem, hl, hr⟩ := hsame
        exact .some ⟨hexpires, l, r, hpairs hmem, hl, hr⟩
  least name h' hfind := by
    obtain ⟨l, r, hmem, hl, hleast⟩ := h.least name h' hfind
    exact ⟨l, r, hpairs hmem, hl, hleast⟩

theorem exists_key (h : SameTables key pairs now t s) {name : String} {e : HeldLock}
    (hlive : t.live? now name = some e) :
    ∃ k, s.find? now (key name) = some k ∧ SameHold pairs e k := by
  have hrel := h.live now (Nat.le_refl now) name
  rw [hlive] at hrel
  generalize s.find? now (key name) = found at hrel ⊢
  cases hrel with
  | some hsame => exact ⟨_, rfl, hsame⟩

theorem exists_live (h : SameTables key pairs now t s) {name : String} {k : RedisKey}
    (hfind : s.find? now (key name) = some k) :
    ∃ e, t.live? now name = some e ∧ SameHold pairs e k := by
  have hrel := h.live now (Nat.le_refl now) name
  rw [hfind] at hrel
  generalize t.live? now name = found at hrel ⊢
  cases hrel with
  | some hsame => exact ⟨_, rfl, hsame⟩

theorem gone (h : SameTables key pairs now t s) {name : String}
    (hlive : t.live? now name = none) : s.find? now (key name) = none := by
  have hrel := h.live now (Nat.le_refl now) name
  rw [hlive] at hrel
  generalize s.find? now (key name) = found at hrel ⊢
  cases hrel
  rfl

/-- The locks of a request are held on both sides until the same time. -/
theorem insert (h : SameTables key pairs now t s) (hkey : Function.Injective key)
    (hmem : some (l, r) ∈ pairs) {stop : Nat} (hstop : l.acquiredAt + l.atLeast ≤ stop) :
    SameTables key pairs now (t.insert ⟨l.name, l.token, stop⟩)
      (s.insert ⟨key l.name, r.token, stop⟩) where
  live time htime name := by
    rw [LocalLocks.live?_insert, RedisKeys.find?_insert]
    dsimp only
    by_cases hname : name = l.name
    · rw [if_pos hname, if_pos (congrArg key hname)]
      split
      · exact .some ⟨rfl, l, r, hmem, rfl, rfl⟩
      · exact .none
    · rw [if_neg hname, if_neg fun e => hname (hkey e)]
      exact h.live time htime name
  least name h' hfind := by
    rw [LocalLocks.find?_insert] at hfind
    split at hfind
    · cases hfind
      exact ⟨l, r, hmem, rfl, hstop⟩
    · exact h.least name h' hfind

/-- A lock is gone on both sides. -/
theorem erase (h : SameTables key pairs now t s) (hkey : Function.Injective key) (name : String) :
    SameTables key pairs now (t.erase name) (s.erase (key name)) where
  live time htime other := by
    rw [LocalLocks.live?_erase, RedisKeys.find?_erase]
    by_cases hname : other = name
    · rw [if_pos hname, if_pos (congrArg key hname)]
      exact .none
    · rw [if_neg hname, if_neg fun e => hname (hkey e)]
      exact h.live time htime other
  least other h' hfind := by
    rw [LocalLocks.find?_erase] at hfind
    split at hfind
    · cases hfind
    · exact h.least other h' hfind

/-- An entry that is not live makes no difference. -/
theorem erase_expired (h : SameTables key pairs now t s) {name : String}
    (hexpired : t.live? now name = none) : SameTables key pairs now (t.erase name) s where
  live time htime other := by
    rw [LocalLocks.live?_erase]
    by_cases hname : other = name
    · subst hname
      rw [if_pos rfl, RedisKeys.find?_of_le (h.gone hexpired) htime]
      exact .none
    · rw [if_neg hname]
      exact h.live time htime other
  least other h' hfind := by
    rw [LocalLocks.find?_erase] at hfind
    split at hfind
    · cases hfind
    · exact h.least other h' hfind

end SameTables

/-- What is known of the two locks that were given for one request. -/
structure Twins (now : Nat) (l r : RunLock) : Prop where
  eq : r = { l with token := r.token }
  elapsed : ∃ n, now = l.acquiredAt + n * 1000000
  countable : LockTerms.Countable ⟨l.atMost, l.atLeast⟩
  reaches : l.acquiredAt + l.atMost ≤ Clock.lastUptime

/-- The tokens of no two requests are alike. -/
def TokensApart (pairs : List LockPair) : Prop :=
  ∀ l r l' r', some (l, r) ∈ pairs → some (l', r') ∈ pairs →
    l.token = l'.token ∨ r.token = r'.token → l = l' ∧ r = r'

/-- The hold of a lock that is given back is a time that the server can count. -/
theorem Twins.millis_holdMillis {now : Nat} {l r : RunLock} (h : Twins now l r) :
    RedisKeys.millis (holdMillis ((l.remainingHold now).getD 0)) =
      l.atLeast - (now - l.acquiredAt) := by
  obtain ⟨n, hnow⟩ := h.elapsed
  obtain ⟨m, hleast⟩ := h.countable.atLeast
  have heq : l.atLeast = m * 1000000 := hleast
  rw [RunLock.getD_remainingHold, h.countable.holdMillis_eq (Nat.sub_le _ _), RedisKeys.millis]
  omega

/-- A lock that is given back is given back on both sides, or on none. -/
theorem SameTables.release {key : String → String} {pairs : List LockPair} {now : Nat}
    {t : LocalLocks} {s : RedisKeys} {l r : RunLock} (h : SameTables key pairs now t s)
    (hkey : Function.Injective key) (hapart : TokensApart pairs) (hmem : some (l, r) ∈ pairs)
    (htwins : Twins now l r) :
    SameTables key pairs now (t.release now l).2
      (s.release now (key l.name) r.token (holdMillis ((l.remainingHold now).getD 0))).2 := by
  have hmillis := htwins.millis_holdMillis
  generalize hhold : holdMillis ((l.remainingHold now).getD 0) = hold at hmillis ⊢
  by_cases hown : ∃ e, t.find? l.name = some e ∧ e.token = l.token
  · obtain ⟨e, hfind, htoken⟩ := hown
    obtain ⟨l', r', hmem', htoken', hleast⟩ := h.least l.name e hfind
    obtain ⟨rfl, rfl⟩ := hapart _ _ _ _ hmem' hmem (.inl (htoken'.trans htoken))
    rw [t.release_of_token now hfind htoken, RunLock.remainingHold_eq]
    by_cases hlive : now < e.expiresAt
    · -- The key of the server holds the other token of the same request.
      obtain ⟨k, hkeyFind, -, l₁, r₁, hmem₁, hl₁, hr₁⟩ :=
        h.exists_key (LocalLocks.live?_of_lt hfind hlive)
      obtain ⟨rfl, rfl⟩ := hapart _ _ _ _ hmem₁ hmem (.inl (hl₁.trans htoken))
      rw [s.release_of_token now hkeyFind hr₁.symm]
      by_cases hover : l₁.acquiredAt + l₁.atLeast ≤ now ∨ l₁.atLeast = 0
      · have hzero : hold = 0 := by
          unfold RedisKeys.millis at hmillis
          omega
        rw [if_pos hover, if_pos hzero]
        exact h.erase hkey _
      · have hpos : hold ≠ 0 := by
          unfold RedisKeys.millis at hmillis
          omega
        obtain ⟨m, hnow⟩ := htwins.elapsed
        have hleast : l₁.atLeast ≤ l₁.atMost := htwins.countable.atLeast_le
        have hreaches := htwins.reaches
        rw [if_neg hover, if_neg hpos, hmillis]
        dsimp only
        rw [if_neg (by omega)]
        have hstop : l₁.acquiredAt + l₁.atLeast ≤ now + (l₁.atLeast - (now - l₁.acquiredAt)) := by
          omega
        have hkept := h.insert hkey hmem hstop
        rwa [hr₁, ← RedisKeys.name_of_find? hkeyFind] at hkept
    · -- An entry that has expired is forgotten; its least time is over, and its key is gone.
      have hexpired : t.live? now l'.name = none := LocalLocks.live?_of_le hfind (by omega)
      rw [if_pos (.inl (by omega)), s.release_of_none now (h.gone hexpired)]
      exact h.erase_expired hexpired
  · -- Somebody else holds the lock by now, or nobody.
    have hother : ∀ e, t.find? l.name = some e → e.token ≠ l.token :=
      fun e hfind htoken => hown ⟨e, hfind, htoken⟩
    rw [t.release_of_no_token now hother]
    obtain hsame | ⟨k, hkeyFind, hvalue, -⟩ := s.release_cases now (key l.name) r.token hold
    · rwa [hsame]
    · obtain ⟨e, hlive, -, l', r', hmem', hl', hr'⟩ := h.exists_live hkeyFind
      obtain ⟨rfl, rfl⟩ := hapart _ _ _ _ hmem' hmem (.inr (hr'.trans hvalue))
      exact absurd hl'.symm (hother e (LocalLocks.find?_of_live? hlive))

/-! ### Both sides in use -/

/-- The answers of one side to requests for which both sides gave the same locks. -/
def answersOf (side : RunLock × RunLock → RunLock) (pairs : List LockPair) :
    List (Except LockError (Option RunLock)) :=
  pairs.map fun g => .ok (g.map side)

section Agreement

variable (p : Part σ LocalLocks) (keys : Part τ RedisKeys) (used : τ → String → Prop)
  (keyPrefix holder : String)

/-- What the two sides have in common after the same calls. -/
structure LockUse.Agrees (pairs : List LockPair) (u : LockUse σ) (v : LockUse τ) : Prop where
  own : u.answers = answersOf Prod.fst pairs
  shared : v.answers = answersOf Prod.snd pairs
  clock : v.session.clock.uptime = u.session.clock.uptime
  twins : ∀ l r, some (l, r) ∈ pairs → Twins u.session.clock.uptime l r
  apart : TokensApart pairs
  issued : ∀ l r, some (l, r) ∈ pairs → (p.get u.session.world).Issued l.token
  named : ∀ l r, some (l, r) ∈ pairs →
    ∃ id, used v.session.world id ∧ r.token = holder ++ ":" ++ id
  tables : SameTables (RedisKeys.cache keys keyPrefix).lockKey pairs u.session.clock.uptime
    (p.get u.session.world) (keys.get v.session.world)

variable {p keys used keyPrefix holder} {freshId : Act τ String} {pairs : List LockPair}
  {u : LockUse σ} {v : LockUse τ}

theorem granted?_of_answersOf {u : LockUse σ} {side : RunLock × RunLock → RunLock}
    (h : u.answers = answersOf side pairs) (request : Nat) :
    u.granted? request = pairs[request]?.join.map side := by
  unfold LockUse.granted?
  rw [h, answersOf, List.getElem?_map]
  rcases pairs[request]? with _ | _ | g <;> rfl

theorem Twins.later {now nanos : Nat} {l r : RunLock} (h : Twins now l r)
    (hnanos : ∃ n, nanos = n * 1000000) : Twins (now + nanos) l r := by
  obtain ⟨m, hm⟩ := h.elapsed
  obtain ⟨n, hn⟩ := hnanos
  exact ⟨h.eq, ⟨m + n, by omega⟩, h.countable, h.reaches⟩

/-- A lock with new tokens on both sides is told apart from the others. -/
theorem TokensApart.append {l r : RunLock} (h : TokensApart pairs)
    (hfst : ∀ l' r', some (l', r') ∈ pairs → l'.token ≠ l.token)
    (hsnd : ∀ l' r', some (l', r') ∈ pairs → r'.token ≠ r.token) :
    TokensApart (pairs ++ [some (l, r)]) := by
  have hnew : ∀ l' r', some (l', r') ∈ pairs ++ [some (l, r)] →
      some (l', r') ∈ pairs ∨ l' = l ∧ r' = r := by simp
  intro l₁ r₁ l₂ r₂ h₁ h₂ heq
  obtain hold₁ | ⟨rfl, rfl⟩ := hnew l₁ r₁ h₁ <;> obtain hold₂ | ⟨rfl, rfl⟩ := hnew l₂ r₂ h₂
  · exact h l₁ r₁ l₂ r₂ hold₁ hold₂ heq
  · exact absurd heq (not_or.mpr ⟨hfst l₁ r₁ hold₁, hsnd l₁ r₁ hold₁⟩)
  · exact absurd heq (not_or.mpr ⟨(hfst l₂ r₂ hold₂).symm, (hsnd l₂ r₂ hold₂).symm⟩)
  · exact ⟨rfl, rfl⟩

namespace LockUse.Agrees

/-- A request that neither side grants. -/
theorem refuse (h : u.Agrees p keys used keyPrefix holder pairs v) {s : Session σ} {s' : Session τ}
    (hclock : s.clock = u.session.clock) (hclock' : s'.clock = v.session.clock)
    (htable : p.get s.world = p.get u.session.world)
    (hkeys : keys.get s'.world = keys.get v.session.world)
    (hused : ∀ id, used v.session.world id → used s'.world id) :
    LockUse.Agrees p keys used keyPrefix holder (pairs ++ [none]) ⟨s, u.answers ++ [.ok none]⟩
      ⟨s', v.answers ++ [.ok none]⟩ := by
  have hold : ∀ l r, some (l, r) ∈ pairs ++ [none] → some (l, r) ∈ pairs := by simp
  constructor
  case own => simp [h.own, answersOf]
  case shared => simp [h.shared, answersOf]
  case clock => simpa [hclock, hclock'] using h.clock
  case twins =>
    intro l r hmem
    rw [hclock]
    exact h.twins l r (hold l r hmem)
  case apart => exact fun l r l' r' hl hl' => h.apart l r l' r' (hold _ _ hl) (hold _ _ hl')
  case issued =>
    intro l r hmem
    rw [htable]
    exact h.issued l r (hold l r hmem)
  case named =>
    intro l r hmem
    obtain ⟨id, hid, htoken⟩ := h.named l r (hold l r hmem)
    exact ⟨id, hused id hid, htoken⟩
  case tables =>
    rw [hclock, htable, hkeys]
    exact h.tables.mono (Nat.le_refl _) (List.subset_append_left _ _)

/-- A request that both sides grant, each with a token that it never gave before. -/
theorem grant (h : u.Agrees p keys used keyPrefix holder pairs v) {s : Session σ} {s' : Session τ}
    {name id : String} {terms : LockTerms} (hterms : terms.Countable)
    (hreaches : u.session.clock.uptime + terms.atMost ≤ Clock.lastUptime)
    (hclock : s.clock = u.session.clock) (hclock' : s'.clock = v.session.clock)
    (hused : ∀ id, used v.session.world id → used s'.world id)
    (hunused : ¬ used v.session.world id) (hid : used s'.world id)
    (htable : p.get s.world =
      { (p.get u.session.world).insert ⟨name, (p.get u.session.world).nextToken,
          u.session.clock.uptime + terms.atMost⟩ with
        issued := (p.get u.session.world).issued + 1 })
    (hkeys : keys.get s'.world = (keys.get v.session.world).insert
      ⟨(RedisKeys.cache keys keyPrefix).lockKey name, holder ++ ":" ++ id,
        u.session.clock.uptime + terms.atMost⟩) :
    let l : RunLock := ⟨name, (p.get u.session.world).nextToken, u.session.clock.uptime,
      terms.atLeast, terms.atMost⟩
    let r : RunLock := { l with token := holder ++ ":" ++ id }
    LockUse.Agrees p keys used keyPrefix holder (pairs ++ [some (l, r)])
      ⟨s, u.answers ++ [.ok (some l)]⟩ ⟨s', v.answers ++ [.ok (some r)]⟩ := by
  intro l r
  have hnew : ∀ l' r', some (l', r') ∈ pairs ++ [some (l, r)] →
      some (l', r') ∈ pairs ∨ l' = l ∧ r' = r := by simp
  -- The tokens of both sides are new.
  have hfst : ∀ l' r', some (l', r') ∈ pairs → l'.token ≠ l.token := by
    intro l' r' hmem heq
    have hissued := h.issued l' r' hmem
    rw [heq] at hissued
    exact LocalLocks.not_issued_nextToken _ hissued
  have hsnd : ∀ l' r', some (l', r') ∈ pairs → r'.token ≠ r.token := by
    intro l' r' hmem heq
    obtain ⟨id', hid', htoken⟩ := h.named l' r' hmem
    have heqId := (String.append_right_inj _).mp (htoken.symm.trans heq)
    exact hunused (heqId ▸ hid')
  constructor
  case own => simp [h.own, answersOf]
  case shared => simp [h.shared, answersOf]
  case clock => simpa [hclock, hclock'] using h.clock
  case twins =>
    intro l' r' hmem
    rw [hclock]
    obtain hmem | ⟨rfl, rfl⟩ := hnew l' r' hmem
    · exact h.twins l' r' hmem
    · exact ⟨rfl, ⟨0, by simp [l]⟩, hterms, hreaches⟩
  case apart => exact h.apart.append hfst hsnd
  case issued =>
    intro l' r' hmem
    rw [htable]
    obtain hmem | ⟨rfl, rfl⟩ := hnew l' r' hmem
    · exact (h.issued l' r' hmem).mono (Nat.le_succ _)
    · exact LocalLocks.issued_nextToken rfl
  case named =>
    intro l' r' hmem
    obtain hmem | ⟨rfl, rfl⟩ := hnew l' r' hmem
    · obtain ⟨id', hid', htoken⟩ := h.named l' r' hmem
      exact ⟨id', hused id' hid', htoken⟩
    · exact ⟨id, hid, rfl⟩
  case tables =>
    rw [hclock, htable, hkeys]
    have hgrown := h.tables.mono (Nat.le_refl _)
      (List.subset_append_left pairs [some (l, r)])
    have htables := hgrown.insert (l := l) (r := r)
      (RedisKeys.injective_lockKey keys keyPrefix) (by simp)
      (Nat.add_le_add_left hterms.atLeast_le _)
    exact ⟨htables.live, htables.least⟩

/-- Time passes on both sides. -/
theorem wait (h : u.Agrees p keys used keyPrefix holder pairs v) {nanos : Nat}
    (hnanos : ∃ n, nanos = n * 1000000) (locks : RunLocks σ) (locks' : RunLocks τ) :
    LockUse.Agrees p keys used keyPrefix holder pairs (u.make locks (.wait nanos))
      (v.make locks' (.wait nanos)) := by
  have huptime := u.session.clock.uptime_advance nanos
  constructor
  case own => exact h.own
  case shared => exact h.shared
  case clock =>
    change (v.session.clock.advance _).uptime = (u.session.clock.advance _).uptime
    rw [Clock.uptime_advance, huptime, h.clock]
  case twins =>
    intro l r hmem
    change Twins (u.session.clock.advance _).uptime l r
    rw [huptime]
    exact (h.twins l r hmem).later hnanos
  case apart => exact h.apart
  case issued => exact h.issued
  case named => exact h.named
  case tables =>
    change SameTables _ pairs (u.session.clock.advance _).uptime _ _
    rw [huptime]
    exact h.tables.mono (Nat.le_add_right _ _) (List.Subset.refl _)

/-- A lock is asked for on both sides. -/
theorem acquire (h : u.Agrees p keys used keyPrefix holder pairs v) (hp : p.Lawful)
    (hkeys : keys.Lawful) (hfresh : FreshIds keys freshId used) (name : String) {terms : LockTerms}
    (hterms : terms.Countable)
    (hreaches : u.session.clock.uptime + terms.atMost ≤ Clock.lastUptime) :
    ∃ pairs', LockUse.Agrees p keys used keyPrefix holder pairs'
      (u.make (LocalLocks.provider p) (.acquire name terms))
      (v.make ((RedisKeys.cache keys keyPrefix).locks holder freshId) (.acquire name terms)) := by
  rcases hid : Act.exec freshId v.session with ⟨id, made⟩
  have hmade := hfresh.keys v.session
  have hclock := hfresh.clock v.session
  have hunused := hfresh.unused v.session
  have hself := hfresh.used_self v.session
  have hmono := hfresh.used_mono v.session
  rw [hid] at hmade hclock hunused hself hmono
  dsimp only at hmade hclock hunused hself hmono
  have hown := LocalLocks.exec_tryAcquire p u.session name terms.atMost terms.atLeast
  obtain ⟨log, hshared⟩ := RedisKeys.exec_tryAcquire_locks keys keyPrefix holder freshId hid name
    terms.atMost terms.atLeast
  dsimp only at hown hshared
  rw [LocalLocks.tryAcquire_eq] at hown
  rw [hclock, h.clock, hmade] at hshared
  cases hlive : (p.get u.session.world).live? u.session.clock.uptime name with
  | some e =>
      obtain ⟨k, hfind, -⟩ := h.tables.exists_key hlive
      rw [hlive] at hown
      rw [hfind] at hshared
      dsimp only at hown hshared
      refine ⟨pairs ++ [none], ?_⟩
      unfold LockUse.make
      dsimp only
      rw [hown, hshared]
      exact h.refuse rfl rfl (hp _ _) (hkeys _ _) fun id hid =>
        (hfresh.used_keys _ _ id).mpr (hmono id hid)
  | none =>
      rw [hlive] at hown
      rw [h.tables.gone hlive, hterms.millis_redisTtl] at hshared
      dsimp only at hown hshared
      rw [if_neg (Nat.not_lt.mpr hreaches)] at hown
      let l : RunLock := ⟨name, (p.get u.session.world).nextToken, u.session.clock.uptime,
        terms.atLeast, terms.atMost⟩
      refine ⟨pairs ++ [some (l, { l with token := holder ++ ":" ++ id })], ?_⟩
      unfold LockUse.make
      dsimp only
      rw [hown, hshared]
      exact h.grant hterms hreaches rfl rfl
        (fun id hid => (hfresh.used_keys _ _ id).mpr (hmono id hid)) hunused
        ((hfresh.used_keys _ _ id).mpr hself) (hp _ _) (hkeys _ _)

/-- Giving a lock back takes no time. -/
theorem clock_make_release (u : LockUse σ) (p : Part σ LocalLocks) (request : Nat) :
    (u.make (LocalLocks.provider p) (.release request)).session.clock = u.session.clock := by
  unfold LockUse.make
  dsimp only
  cases u.granted? request with
  | none => rfl
  | some l =>
      obtain ⟨log, hrelease⟩ := LocalLocks.exec_release p u.session l
      dsimp only
      rw [hrelease]

/-- A lock is given back on both sides, if the request was granted. -/
theorem giveBack (h : u.Agrees p keys used keyPrefix holder pairs v) (hp : p.Lawful)
    (hkeys : keys.Lawful) (hfresh : FreshIds keys freshId used) (request : Nat) :
    LockUse.Agrees p keys used keyPrefix holder pairs
      (u.make (LocalLocks.provider p) (.release request))
      (v.make ((RedisKeys.cache keys keyPrefix).locks holder freshId) (.release request)) := by
  have hown := granted?_of_answersOf h.own request
  have hshared := granted?_of_answersOf h.shared request
  unfold LockUse.make
  dsimp only
  rw [hown, hshared]
  cases hpair : pairs[request]?.join with
  | none => exact h
  | some g =>
      obtain ⟨l, r⟩ := g
      have hmem : some (l, r) ∈ pairs :=
        List.mem_of_getElem? (Option.join_eq_some_iff.mp hpair)
      have htwins := h.twins l r hmem
      obtain ⟨log, hrelease⟩ := LocalLocks.exec_release p u.session l
      obtain ⟨log', hrelease'⟩ :=
        RedisKeys.exec_release_locks keys keyPrefix holder freshId r v.session
      dsimp only [Option.map_some]
      have hname : r.name = l.name := by rw [htwins.eq]
      have hremaining : r.remainingHold v.session.clock.uptime =
          l.remainingHold u.session.clock.uptime := by
        rw [h.clock, htwins.eq]
        rfl
      rw [hname, hremaining, h.clock] at hrelease'
      rw [hrelease, hrelease']
      constructor
      case own => exact h.own
      case shared => exact h.shared
      case clock => exact h.clock
      case twins => exact h.twins
      case apart => exact h.apart
      case issued =>
        intro l' r' hmem'
        dsimp only
        rw [hp]
        exact (h.issued l' r' hmem').mono (by simp)
      case named =>
        intro l' r' hmem'
        obtain ⟨id, hid, htoken⟩ := h.named l' r' hmem'
        exact ⟨id, (hfresh.used_keys _ _ id).mpr hid, htoken⟩
      case tables =>
        dsimp only
        rw [hp, hkeys]
        exact h.tables.release (RedisKeys.injective_lockKey keys keyPrefix) h.apart hmem htwins

theorem makeAll (h : u.Agrees p keys used keyPrefix holder pairs v) (hp : p.Lawful)
    (hkeys : keys.Lawful) (hfresh : FreshIds keys freshId used) {calls : List LockCall}
    (hcalls : ∀ c ∈ calls, c.Countable)
    (hreach : LockCall.AllReach u.session.clock.uptime calls) :
    ∃ pairs', LockUse.Agrees p keys used keyPrefix holder pairs'
      (calls.foldl (LockUse.make (LocalLocks.provider p)) u)
      (calls.foldl (LockUse.make ((RedisKeys.cache keys keyPrefix).locks holder freshId)) v) := by
  induction calls generalizing u v pairs with
  | nil => exact ⟨pairs, h⟩
  | cons c rest ih =>
      have hc := hcalls c List.mem_cons_self
      have hrest : ∀ c' ∈ rest, c'.Countable := fun c' hc' => hcalls c' (List.mem_cons_of_mem c hc')
      cases c with
      | wait nanos =>
          refine ih (h.wait hc _ _) hrest ?_
          change LockCall.AllReach (u.session.clock.advance nanos).uptime rest
          rw [Clock.uptime_advance]
          exact hreach
      | acquire name terms =>
          obtain ⟨pairs', hnext⟩ := h.acquire hp hkeys hfresh name hc hreach.1
          exact ih hnext hrest hreach.2
      | release request =>
          refine ih (h.giveBack hp hkeys hfresh request) hrest ?_
          rw [clock_make_release]
          exact hreach

end LockUse.Agrees

theorem LockUse.agrees_start {s : Session σ} {s' : Session τ} (hempty : p.get s.world = .empty)
    (hclock : s'.clock.uptime = s.clock.uptime)
    (hfree : ∀ name, (keys.get s'.world).find? s.clock.uptime
      ((RedisKeys.cache keys keyPrefix).lockKey name) = none) :
    LockUse.Agrees p keys used keyPrefix holder [] ⟨s, []⟩ ⟨s', []⟩ := by
  constructor
  case own => rfl
  case shared => rfl
  case clock => exact hclock
  case twins => simp
  case apart => simp [TokensApart]
  case issued => simp
  case named => simp
  case tables =>
    dsimp only
    rw [hempty]
    constructor
    case live =>
      intro time htime name
      rw [RedisKeys.find?_of_le (hfree name) htime]
      exact .none
    case least => simp

theorem grants_of_answersOf {u : LockUse σ} {side : RunLock × RunLock → RunLock}
    (h : u.answers = answersOf side pairs) :
    u.grants = (pairs.map Option.isSome).map .ok := by
  unfold LockUse.grants
  rw [h, answersOf, List.map_map, List.map_map]
  refine List.map_congr_left fun g _ => ?_
  cases g <;> rfl

/-- **The locks of a process are granted as the locks of a server are.** Whatever locks are asked
for, and however late and however often each is given back: both sides grant the same requests, as
long as times are whole milliseconds that a number of 64 bits can count, and no lock may be held for
longer than a clock can show. -/
theorem LockUse.grants_agree (hp : p.Lawful) (hkeys : keys.Lawful)
    (hfresh : FreshIds keys freshId used) {s : Session σ} {s' : Session τ}
    (hempty : p.get s.world = .empty) (hclock : s'.clock.uptime = s.clock.uptime)
    (hfree : ∀ name, (keys.get s'.world).find? s.clock.uptime
      ((RedisKeys.cache keys keyPrefix).lockKey name) = none)
    {calls : List LockCall} (hcalls : ∀ c ∈ calls, c.Countable)
    (hreach : LockCall.AllReach s.clock.uptime calls) :
    ∃ granted : List Bool,
      (makeAll (LocalLocks.provider p) calls s).grants = granted.map .ok ∧
      (makeAll ((RedisKeys.cache keys keyPrefix).locks holder freshId) calls s').grants =
        granted.map .ok := by
  have hstart : LockUse.Agrees p keys used keyPrefix holder [] ⟨s, []⟩ ⟨s', []⟩ :=
    agrees_start hempty hclock hfree
  obtain ⟨pairs, hpairs⟩ := hstart.makeAll hp hkeys hfresh hcalls hreach
  exact ⟨pairs.map Option.isSome, grants_of_answersOf hpairs.own,
    grants_of_answersOf hpairs.shared⟩

end Agreement

/-! ### A server and a process side by side -/

namespace LockUse

/-- A session over a world, at uptime zero. -/
def sessionOf {σ : Type} (w : σ) : Session σ := ⟨w, ⟨⟨0, 0⟩, 0⟩, []⟩

/-- A table of locks and nothing else. -/
def tablePart : Part LocalLocks LocalLocks := ⟨id, fun t _ => t⟩

/-- A lock is given back in time, another one late, and both once more when they have been taken
over. -/
def handovers : List LockCall := [
  .acquire "daily" ⟨60000000000, 5000000000⟩, .acquire "daily" ⟨60000000000, 0⟩,
  .acquire "yearly" ⟨2000000000, 0⟩, .wait 1000000000, .release 0, .wait 3999000000,
  .acquire "daily" ⟨60000000000, 0⟩, .wait 1000000, .acquire "daily" ⟨10000000000, 10000000000⟩,
  .release 0, .release 2, .release 4, .release 4, .acquire "yearly" ⟨1000000, 1000000⟩,
  .wait 10000000000, .release 5, .acquire "daily" ⟨1000000, 0⟩, .acquire "yearly" ⟨1000000, 0⟩]

theorem grants_handovers : ∃ granted : List Bool,
    (makeAll (LocalLocks.provider tablePart) handovers (sessionOf .empty)).grants =
      granted.map .ok ∧
    (makeAll CountingServer.locks handovers (sessionOf ⟨.empty, 0⟩)).grants = granted.map .ok := by
  let server : Session CountingServer := sessionOf ⟨.empty, 0⟩
  have hfree : ∀ name, (CountingServer.keysPart.get server.world).find? 0
      ((RedisKeys.cache CountingServer.keysPart "collector").lockKey name) = none := fun _ => rfl
  exact grants_agree (p := tablePart) (s := sessionOf .empty) (fun _ _ => rfl)
    (fun _ _ => rfl) CountingServer.freshIds rfl rfl hfree (by decide)
    (by simp [handovers, LockCall.AllReach, sessionOf, Clock.lastUptime])

/-- A lock that may be held for more milliseconds than a number of 64 bits can count is granted by
the server, but not by the process, when that many milliseconds have passed; and so is one that may be
held for longer than a clock can show. -/
theorem not_grants_agree_of_uncountable :
    (¬ ∀ calls : List LockCall, (∀ c ∈ calls, c.WholeMillis) → ∃ granted : List Bool,
      (makeAll (LocalLocks.provider tablePart) calls (sessionOf .empty)).grants =
        granted.map .ok ∧
      (makeAll CountingServer.locks calls (sessionOf ⟨.empty, 0⟩)).grants = granted.map .ok) ∧
    ¬ ∀ calls : List LockCall, (∀ c ∈ calls, c.Countable) → ∃ granted : List Bool,
      (makeAll (LocalLocks.provider tablePart) calls (sessionOf .empty)).grants =
        granted.map .ok ∧
      (makeAll CountingServer.locks calls (sessionOf ⟨.empty, 0⟩)).grants = granted.map .ok := by
  constructor
  · intro h
    let terms : LockTerms := ⟨UInt64.size * 1000000, 0⟩
    let calls : List LockCall :=
      [.acquire "daily" terms, .wait ((UInt64.size - 1) * 1000000), .acquire "daily" terms]
    have hterms : terms.WholeMillis := ⟨⟨UInt64.size, by decide, rfl⟩, ⟨0, rfl⟩, Nat.zero_le _⟩
    have hwhole : ∀ c ∈ calls, c.WholeMillis := by
      simpa [calls, LockCall.WholeMillis, hterms] using ⟨UInt64.size - 1, by decide⟩
    obtain ⟨granted, hown, hshared⟩ := h calls hwhole
    have hrefused : (makeAll (LocalLocks.provider tablePart) calls
        (sessionOf .empty)).grants = [.ok true, .ok false] := by decide +kernel
    have hgranted : (makeAll CountingServer.locks calls (sessionOf ⟨.empty, 0⟩)).grants =
        [.ok true, .ok true] := by decide +kernel
    have hsame := (hrefused.symm.trans hown).trans (hshared.symm.trans hgranted)
    simp at hsame
  · -- One millisecond before the last uptime, a lock is asked for that may be held for one.
    intro h
    let calls : List LockCall :=
      [.wait (Clock.lastUptime / 1000000 * 1000000), .acquire "daily" ⟨1000000, 0⟩]
    obtain ⟨granted, hown, -⟩ := h calls (by decide +kernel)
    have hbroken : (makeAll (LocalLocks.provider tablePart) calls
        (sessionOf .empty)).grants = [.error .beyondClock] := by decide +kernel
    have hsame := hbroken.symm.trans hown
    cases granted with
    | nil => simp at hsame
    | cons g rest => simp at hsame

end LockUse

end DailyBars
