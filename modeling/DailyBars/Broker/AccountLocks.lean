/-!
# Locks of accounts

For each account that was ever asked for, the callers at its lock in the order in which they came.
The first of a queue holds the lock, so there is never more than one holder, and the lock passes on
in the order of arrival. The accounts are few and fixed, so their queues stay when they are empty.
-/

namespace DailyBars

/-- The queues at the locks, by the name of the account. -/
structure AccountLocks where
  queues : List (String × List Nat)
  deriving DecidableEq, Repr

namespace AccountLocks

/-- No account was asked for yet. -/
def empty : AccountLocks := ⟨[]⟩

/-- The callers at the lock of an account, its holder first. -/
def queue (l : AccountLocks) (account : String) : List Nat := (l.queues.lookup account).getD []

/-- Replaces the queue of an account. -/
def setQueue (l : AccountLocks) (account : String) (callers : List Nat) : AccountLocks :=
  ⟨(account, callers) :: l.queues.filter (·.1 ≠ account)⟩

/-- The caller that holds the lock of an account. -/
def holder? (l : AccountLocks) (account : String) : Option Nat := (l.queue account).head?

/-- A caller gets in line. -/
def join (l : AccountLocks) (account : String) (caller : Nat) : AccountLocks :=
  l.setQueue account (l.queue account ++ [caller])

/-- The holder goes. -/
def release (l : AccountLocks) (account : String) : AccountLocks :=
  l.setQueue account (l.queue account).tail

/-- The number of accounts that were ever asked for. -/
def size (l : AccountLocks) : Nat := l.queues.length

/-- An account's queue is the one that was set, and the queues of the others stay. -/
theorem queue_setQueue (l : AccountLocks) (a b : String) (callers : List Nat) :
    (l.setQueue a callers).queue b = if b = a then callers else l.queue b := by
  by_cases h : b = a
  · subst h
    simp [queue, setQueue]
  · have others : (l.queues.filter (·.1 ≠ a)).lookup b = l.queues.lookup b := by
      generalize l.queues = queues
      induction queues with
      | nil => rfl
      | cons q rest ih => grind
    have hba : (b == a) = false := by simpa using h
    simp only [queue, setQueue, List.lookup_cons, hba, h, if_false, others]

end AccountLocks

end DailyBars
