import DailyBars.Proofs.Session
import DailyBars.Proofs.Text.Digits
import DailyBars.Storage.LocalLocks

/-!
# The table of the locks of a process

What is found in the table after a change, what acquiring and releasing do to it, and that both are
one step of the process. An entry counts only until it expires (`live?`), but it stays in the table:
its token is all that a release looks at.
-/

namespace DailyBars

/-- What is left of the least time of a lock, or nothing. -/
theorem RunLock.remainingHold_eq (l : RunLock) (now : Nat) :
    l.remainingHold now =
      if l.acquiredAt + l.atLeast ≤ now ∨ l.atLeast = 0 then none
      else some (l.atLeast - (now - l.acquiredAt)) := by
  unfold remainingHold
  dsimp only
  by_cases h : l.atLeast - (now - l.acquiredAt) = 0
  · rw [if_pos h, if_pos (by omega)]
  · rw [if_neg h, if_neg (by omega)]

namespace LocalLocks

variable {σ : Type}

/-- The entry of a name at a given uptime, unless it has expired. -/
def live? (t : LocalLocks) (now : Nat) (name : String) : Option HeldLock :=
  (t.find? name).filter fun l => decide (now < l.expiresAt)

/-! ### Looking up -/

@[simp] theorem find?_empty (name : String) : empty.find? name = none := rfl

theorem find?_erase (t : LocalLocks) (name other : String) :
    (t.erase name).find? other = if other = name then none else t.find? other := by
  change (t.held.filter (·.name != name)).find? (·.name == other) = _
  rw [List.find?_filter]
  by_cases h : other = name
  · rw [if_pos h, List.find?_eq_none]
    intro l _
    simp [h]
  · rw [if_neg h]
    refine congrArg (t.held.find? ·) (funext fun l => ?_)
    by_cases hl : l.name = other <;> simp [hl, h]

theorem find?_insert (t : LocalLocks) (l : HeldLock) (name : String) :
    (t.insert l).find? name = if name = l.name then some l else t.find? name := by
  have hcons : (t.insert l).find? name =
      if l.name == name then some l else (t.erase l.name).find? name := by
    change List.find? _ (l :: (t.erase l.name).held) = _
    rw [List.find?_cons]
    cases l.name == name <;> rfl
  rw [hcons, find?_erase]
  by_cases h : name = l.name
  · simp [h]
  · have hne : l.name ≠ name := fun e => h e.symm
    simp [h, hne]

theorem live?_of_lt {t : LocalLocks} {now : Nat} {name : String} {l : HeldLock}
    (h : t.find? name = some l) (hlt : now < l.expiresAt) : t.live? now name = some l := by
  simp [live?, h, hlt, Option.filter]

theorem live?_of_le {t : LocalLocks} {now : Nat} {name : String} {l : HeldLock}
    (h : t.find? name = some l) (hle : l.expiresAt ≤ now) : t.live? now name = none := by
  simp [live?, h, Nat.not_lt.mpr hle, Option.filter]

theorem find?_of_live? {t : LocalLocks} {now : Nat} {name : String} {l : HeldLock}
    (h : t.live? now name = some l) : t.find? name = some l :=
  (Option.filter_eq_some_iff.mp h).1

theorem live?_erase (t : LocalLocks) (now : Nat) (name other : String) :
    (t.erase name).live? now other = if other = name then none else t.live? now other := by
  unfold live?
  rw [find?_erase]
  split <;> rfl

theorem live?_insert (t : LocalLocks) (now : Nat) (l : HeldLock) (name : String) :
    (t.insert l).live? now name =
      if name = l.name then (if now < l.expiresAt then some l else none)
      else t.live? now name := by
  unfold live?
  rw [find?_insert]
  by_cases h : name = l.name
  · rw [if_pos h, if_pos h]
    by_cases hlive : now < l.expiresAt <;> simp [hlive, Option.filter]
  · rw [if_neg h, if_neg h]

@[simp] theorem issued_insert (t : LocalLocks) (l : HeldLock) : (t.insert l).issued = t.issued := rfl

/-! ### Acquiring -/

/-- The token of the next lock that is given out. -/
def nextToken (t : LocalLocks) : String := "local:" ++ Text.decimalText t.issued

/-- A token of a lock that was given out. -/
def Issued (t : LocalLocks) (token : String) : Prop :=
  ∃ k < t.issued, token = "local:" ++ Text.decimalText k

theorem Issued.mono {t u : LocalLocks} {token : String} (h : t.Issued token)
    (hle : t.issued ≤ u.issued) : u.Issued token := by
  obtain ⟨k, hk, htoken⟩ := h
  exact ⟨k, Nat.lt_of_lt_of_le hk hle, htoken⟩

/-- The next token is a new one. -/
theorem not_issued_nextToken (t : LocalLocks) : ¬ t.Issued t.nextToken := by
  rintro ⟨k, hk, htoken⟩
  have hnumber := Text.injective_decimalText ((String.append_right_inj _).mp htoken)
  omega

theorem issued_nextToken {t u : LocalLocks} (h : u.issued = t.issued + 1) :
    u.Issued t.nextToken := ⟨t.issued, by omega, rfl⟩

/-- A lock is given out where no entry of its name is live and a clock can show when it expires. -/
theorem tryAcquire_eq (t : LocalLocks) (now : Nat) (name : String) (atMost atLeast : Nat) :
    t.tryAcquire now name atMost atLeast =
      match t.live? now name with
      | some _ => (.ok none, t)
      | none =>
        if Clock.lastUptime < now + atMost then
          (.error .beyondClock, { t with issued := t.issued + 1 })
        else
          (.ok (some ⟨name, t.nextToken, now, atLeast, atMost⟩),
            { t.insert ⟨name, t.nextToken, now + atMost⟩ with issued := t.issued + 1 }) := by
  unfold tryAcquire live?
  cases t.find? name with
  | none => rfl
  | some l => by_cases h : now < l.expiresAt <;> simp [h, Option.filter, nextToken]

/-! ### Releasing -/

/-- The entry of a lock that is released is kept for the rest of the least time, if any, unless no
clock can show its end. -/
theorem release_of_token (t : LocalLocks) (now : Nat) {l : RunLock} {h : HeldLock}
    (hfind : t.find? l.name = some h) (htoken : h.token = l.token) :
    t.release now l =
      match l.remainingHold now with
      | some hold =>
        if Clock.lastUptime < now + hold then (.error .beyondClock, t)
        else (.ok (), t.insert ⟨l.name, l.token, now + hold⟩)
      | none => (.ok (), t.erase l.name) := by
  unfold release
  rw [hfind]
  dsimp only
  refine (if_pos htoken).trans ?_
  cases l.remainingHold now <;> rfl

/-- A lock that somebody else holds by now, or nobody, is not released. -/
theorem release_of_no_token (t : LocalLocks) (now : Nat) {l : RunLock}
    (h : ∀ e, t.find? l.name = some e → e.token ≠ l.token) : t.release now l = (.ok (), t) := by
  unfold release
  cases hfind : t.find? l.name with
  | none => rfl
  | some e => exact if_neg (h e hfind)

@[simp] theorem issued_release (t : LocalLocks) (now : Nat) (l : RunLock) :
    (t.release now l).2.issued = t.issued := by
  unfold release
  split
  · rfl
  · split
    · split
      · split <;> rfl
      · rfl
    · rfl

/-! ### The table in a part of the world -/

section Provider

variable (p : Part σ LocalLocks) (s : Session σ)

theorem exec_tryAcquire (name : String) (atMost atLeast : Nat) :
    ((provider p).tryAcquire name atMost atLeast).exec s =
      let r := (p.get s.world).tryAcquire s.clock.uptime name atMost atLeast
      (r.1, { s with world := p.set r.2 s.world }) := rfl

/-- What releasing a lock logs makes no difference to the table. -/
theorem exec_release (l : RunLock) :
    let r := (p.get s.world).release s.clock.uptime l
    ∃ log, ((provider p).release l).exec s = (r.1, ⟨p.set r.2 s.world, s.clock, log⟩) := by
  intro r
  unfold provider
  dsimp only
  rw [Attempt.exec_mk, Act.exec_bind, Act.exec_uptime]
  dsimp only
  rw [Act.exec_bind, Act.exec_onPart]
  dsimp only
  cases (p.get s.world).holds l with
  | true => exact ⟨s.log, rfl⟩
  | false => exact ⟨_, rfl⟩

end Provider

end LocalLocks

end DailyBars
