import DailyBars.Proofs.Storage.LockExclusion
import DailyBars.Proofs.Text.Digits

/-!
# The locks of a server that is asked one thing at a time

What asking for a lock and giving it back do to the keys of a server, when commands take no time: a
lock is given out where its key is not there (`exec_tryAcquire_locks`), and the key of a lock that is
given back is gone after the rest of the least time (`exec_release_locks`).
-/

namespace DailyBars

variable {τ : Type}

/-- Identifiers that nobody used before; making one changes nothing else. -/
structure FreshIds (keys : Part τ RedisKeys) (freshId : Act τ String) (used : τ → String → Prop) :
    Prop where
  unused : ∀ s, ¬ used s.world (Act.exec freshId s).1
  used_self : ∀ s, used (Act.exec freshId s).2.world (Act.exec freshId s).1
  used_mono : ∀ s id, used s.world id → used (Act.exec freshId s).2.world id
  used_keys : ∀ k w id, used (keys.set k w) id ↔ used w id
  keys : ∀ s, keys.get (Act.exec freshId s).2.world = keys.get s.world
  clock : ∀ s, (Act.exec freshId s).2.clock = s.clock

namespace RedisKeys

theorem find?_of_le {s : RedisKeys} {now t : Nat} {name : String} (h : s.find? now name = none)
    (ht : now ≤ t) : s.find? t name = none := by
  unfold find? at h ⊢
  rw [Option.filter_eq_none_iff] at h ⊢
  intro k hk
  have := h k hk
  simp only [decide_eq_true_eq] at this ⊢
  omega

theorem exec_link (keys : Part τ RedisKeys) (c : RedisCommand) (s : Session τ) :
    (link keys c).exec s =
      let r := (keys.get s.world).run s.clock.uptime c
      (.ok r.1, { s with world := keys.set r.2 s.world }) := rfl

/-- The key of a lock that is given back is gone at once, or after the hold. -/
theorem release_of_token (s : RedisKeys) (now : Nat) {name token : String} {hold : Nat}
    {k : RedisKey} (hfind : s.find? now name = some k) (htoken : k.value = token) :
    (s.release now name token hold).2 =
      if hold = 0 then s.erase name else s.insert { k with expiresAt := now + millis hold } := by
  unfold release
  rw [hfind]
  dsimp only
  rw [if_neg (not_not.mpr htoken)]
  split <;> rfl

/-- A lock whose key is gone is not given back. -/
theorem release_of_none (s : RedisKeys) (now : Nat) {name token : String} {hold : Nat}
    (hfind : s.find? now name = none) : (s.release now name token hold).2 = s := by
  unfold release
  rw [hfind]

/-- The script answers with a number. -/
theorem exists_release_fst (s : RedisKeys) (now : Nat) (name token : String) (hold : Nat) :
    ∃ n, (s.release now name token hold).1 = .int n := by
  unfold release
  split
  · exact ⟨0, rfl⟩
  · split
    · exact ⟨0, rfl⟩
    · split <;> exact ⟨1, rfl⟩

/-! ### Asking for locks and giving them back -/

variable (keys : Part τ RedisKeys) (keyPrefix holder : String) (freshId : Act τ String)

/-- The server, on a connection on which commands take no time. -/
def cache : RedisCache τ := ⟨link keys, keyPrefix⟩

theorem injective_lockKey : Function.Injective (cache keys keyPrefix).lockKey :=
  fun _ _ h => (String.append_right_inj _).mp h

/-- A lock is given out where its key is not there. -/
theorem exec_tryAcquire_locks {s made : Session τ} {id : String}
    (hid : Act.exec freshId s = (id, made)) (name : String) (atMost atLeast : Nat) :
    let key := (cache keys keyPrefix).lockKey name
    let token := holder ++ ":" ++ id
    let now := made.clock.uptime
    let before := keys.get made.world
    ∃ log, (((cache keys keyPrefix).locks holder freshId).tryAcquire name atMost atLeast).exec s =
      match before.find? now key with
      | some _ => (.ok none, ⟨keys.set before made.world, made.clock, log⟩)
      | none => (.ok (some ⟨name, token, now, atLeast, atMost⟩),
          ⟨keys.set (before.insert ⟨key, token, now + millis (redisTtl atMost)⟩) made.world,
            made.clock, log⟩) := by
  intro key token now before
  have hlink : ((cache keys keyPrefix).link (.setIfAbsent key token (redisTtl atMost))).exec made =
      if (before.find? now key).isSome then
        (.ok .nil, { made with world := keys.set before made.world })
      else (.ok (.status "OK"), { made with
        world := keys.set (before.insert ⟨key, token, now + millis (redisTtl atMost)⟩) made.world }) := by
    change (link keys _).exec made = _
    rw [exec_link]
    unfold run
    dsimp only
    split <;> rfl
  rw [LockStage.exec_tryAcquire, hid]
  dsimp only
  rw [hlink]
  cases before.find? now key with
  | some k => exact ⟨_, rfl⟩
  | none => exact ⟨_, rfl⟩

/-- A lock that is given back is kept for the rest of its least time. -/
theorem exec_release_locks (lock : RunLock) (s : Session τ) :
    let key := (cache keys keyPrefix).lockKey lock.name
    let hold := holdMillis ((lock.remainingHold s.clock.uptime).getD 0)
    ∃ log, (((cache keys keyPrefix).locks holder freshId).release lock).exec s =
      (.ok (), ⟨keys.set ((keys.get s.world).release s.clock.uptime key lock.token hold).2 s.world,
        s.clock, log⟩) := by
  intro key hold
  let r := (keys.get s.world).release s.clock.uptime key lock.token hold
  obtain ⟨n, hn⟩ := (keys.get s.world).exists_release_fst s.clock.uptime key lock.token hold
  have hlink : ((cache keys keyPrefix).link (.release key lock.token hold)).exec s =
      (.ok (.int n), { s with world := keys.set r.2 s.world }) := by
    change (Except.ok r.1, _) = _
    rw [hn]
    rfl
  unfold RedisCache.locks
  dsimp only
  rw [Attempt.exec_bind, Attempt.exec_ofAct, Act.exec_uptime]
  dsimp only
  rw [Attempt.exec_bind, Attempt.exec_orElseAs, LockStage.exec_releaseLock,
    LockStage.exec_runRelease, hlink]
  dsimp only [RedisReply.toInt, Except.map, mapError_ok]
  by_cases hpos : 0 < n <;> simp only [hpos, decide_true, decide_false]
  · exact ⟨_, rfl⟩
  · exact ⟨_, rfl⟩

end RedisKeys

/-! ### A server with a counter -/

/-- A server, and the number of identifiers that were made so far. -/
structure CountingServer where
  keys : RedisKeys
  made : Nat

namespace CountingServer

def keysPart : Part CountingServer RedisKeys := ⟨keys, fun k w => { w with keys := k }⟩

/-- Identifiers are numbered. -/
def freshId : Act CountingServer String :=
  Act.onWorld fun w => (Text.decimalText w.made, { w with made := w.made + 1 })

/-- The identifiers that were made so far. -/
def Used (w : CountingServer) (id : String) : Prop := ∃ k < w.made, id = Text.decimalText k

theorem freshIds : FreshIds keysPart freshId Used where
  unused s := by
    rintro ⟨k, hk, hid⟩
    exact absurd (Text.injective_decimalText hid) (Nat.ne_of_gt hk)
  used_self s := ⟨s.world.made, Nat.lt_succ_self _, rfl⟩
  used_mono s id h := by
    obtain ⟨k, hk, hid⟩ := h
    exact ⟨k, Nat.lt_succ_of_lt hk, hid⟩
  used_keys _ _ _ := Iff.rfl
  keys _ := rfl
  clock _ := rfl

/-- The server as the keeper of locks. -/
def locks : RunLocks CountingServer :=
  (RedisKeys.cache keysPart "collector").locks "host" freshId

end CountingServer

end DailyBars
