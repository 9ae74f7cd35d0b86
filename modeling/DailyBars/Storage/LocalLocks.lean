import DailyBars.Storage.Interface

/-!
# Locks within one process

A table of the locks that are held: the token of the holder and the uptime at which the lock
expires. An entry stays in the table when it has expired, until its lock is given back or another takes
its place; its token tells whether a lock that is given back late has been taken over. The uptime at
which a lock expires must be one that a clock can show: whoever asks for a longer one breaks off, and
so does whoever gives a lock back that must be kept for longer.
-/

namespace DailyBars

/-- A lock that is held. -/
structure HeldLock where
  name : String
  token : String
  expiresAt : Nat
  deriving DecidableEq, Repr

/-- The locks that are held, and the number of locks given out so far. -/
structure LocalLocks where
  held : List HeldLock
  issued : Nat
  deriving DecidableEq, Repr

namespace LocalLocks

/-- No locks. -/
def empty : LocalLocks := ⟨[], 0⟩

/-- The entry of a name. -/
def find? (t : LocalLocks) (name : String) : Option HeldLock := t.held.find? (·.name == name)

/-- The table without the entry of a name. -/
def erase (t : LocalLocks) (name : String) : LocalLocks :=
  { t with held := t.held.filter (·.name != name) }

/-- The table with an entry, which replaces the one of its name. -/
def insert (t : LocalLocks) (l : HeldLock) : LocalLocks :=
  { t.erase l.name with held := l :: (t.erase l.name).held }

/-- Acquires a lock at a given uptime, unless it is held and has not expired. A number is given out
before the end of the lock is reckoned. -/
def tryAcquire (t : LocalLocks) (now : Nat) (name : String) (atMost atLeast : Nat) :
    Except LockError (Option RunLock) × LocalLocks :=
  let busy := match t.find? name with
    | some l => decide (now < l.expiresAt)
    | none => false
  if busy then (.ok none, t)
  else
    let token := "local:" ++ Text.decimalText t.issued
    if Clock.lastUptime < now + atMost then (.error .beyondClock, { t with issued := t.issued + 1 })
    else
      (.ok (some ⟨name, token, now, atLeast, atMost⟩),
        { t.insert ⟨name, token, now + atMost⟩ with issued := t.issued + 1 })

/-- Whether a lock was not taken over by somebody else. -/
def holds (t : LocalLocks) (l : RunLock) : Bool := (t.find? l.name).any (·.token == l.token)

/-- Releases a lock at a given uptime. Nothing happens if somebody else holds it by now; otherwise
it is kept for the rest of its least time. -/
def release (t : LocalLocks) (now : Nat) (l : RunLock) : Except LockError Unit × LocalLocks :=
  match t.find? l.name with
  | none => (.ok (), t)
  | some h =>
    if h.token = l.token then
      match l.remainingHold now with
      | some hold =>
        if Clock.lastUptime < now + hold then (.error .beyondClock, t)
        else (.ok (), t.insert ⟨l.name, l.token, now + hold⟩)
      | none => (.ok (), t.erase l.name)
    else (.ok (), t)

/-- The locks kept in a part of the world. -/
def provider {σ : Type} (p : Part σ LocalLocks) : RunLocks σ where
  tryAcquire name atMost atLeast := ExceptT.mk do
    let now ← Act.uptime
    Act.onPart p (·.tryAcquire now name atMost atLeast)
  release l := ExceptT.mk do
    let now ← Act.uptime
    let (held, r) ← Act.onPart p fun t =>
      let (r, after) := t.release now l
      ((t.holds l, r), after)
    unless held do
      Act.emit .debug .lock "Run lock already expired or taken over" [("lock", .text l.name)]
    return r

end LocalLocks

end DailyBars
