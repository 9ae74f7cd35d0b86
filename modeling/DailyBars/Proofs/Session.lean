import DailyBars.Session

/-!
# Running actions and attempts

What actions and attempts do to a session, step by step. `Act.exec` and `Attempt.exec` run a program
from a session to its result and the session after it. There is one equation for each way in which
programs are put together, so that later proofs follow a program through its steps and never open a
monad.
-/

namespace DailyBars

variable {σ τ ε ε' α β : Type}

/-- Runs an action: its result, and the session after it. -/
def Act.exec (x : Act σ α) (s : Session σ) : α × Session σ := x s

/-- Runs an attempt: its result or its failure, and the session after it. -/
def Attempt.exec (x : Attempt σ ε α) (s : Session σ) : Except ε α × Session σ :=
  Act.exec x.run s

theorem Clock.uptime_advance (c : Clock) (nanos : Nat) :
    (c.advance nanos).uptime = c.uptime + nanos := by
  unfold advance
  split
  · rename_i h
    rw [h, Nat.add_zero]
  · rfl

/-- What is put in a part of a world is found there. -/
def Part.Lawful (p : Part σ τ) : Prop := ∀ a w, p.get (p.set a w) = a

namespace Act

@[simp] theorem exec_pure (a : α) (s : Session σ) : exec (pure a) s = (a, s) := rfl

@[simp] theorem exec_bind (x : Act σ α) (f : α → Act σ β) (s : Session σ) :
    exec (x >>= f) s = exec (f (exec x s).1) (exec x s).2 := rfl

@[simp] theorem exec_now (s : Session σ) : exec now s = (s.clock.wall, s) := rfl

@[simp] theorem exec_uptime (s : Session σ) : exec uptime s = (s.clock.uptime, s) := rfl

@[simp] theorem exec_pass (nanos : Nat) (s : Session σ) :
    exec (pass nanos) s = ((), { s with clock := s.clock.advance nanos }) := rfl

@[simp] theorem exec_emit (level : LogLevel) (source : LogSource) (message : String)
    (fields : List (String × LogValue)) (s : Session σ) :
    exec (emit level source message fields) s =
      ((), { s with log := s.log ++ [⟨level, source, message, fields⟩] }) := rfl

@[simp] theorem exec_onPart (p : Part σ τ) (f : τ → α × τ) (s : Session σ) :
    exec (onPart p f) s =
      ((f (p.get s.world)).1, { s with world := p.set (f (p.get s.world)).2 s.world }) := rfl

@[simp] theorem exec_run (x : Attempt σ ε α) (s : Session σ) : exec x.run s = x.exec s := rfl

end Act

@[simp] theorem mapError_ok (f : ε → ε') (a : α) :
    (.ok a : Except ε α).mapError f = .ok a := rfl

@[simp] theorem mapError_error (f : ε → ε') (e : ε) :
    (.error e : Except ε α).mapError f = .error (f e) := rfl

namespace Attempt

@[simp] theorem exec_pure (a : α) (s : Session σ) :
    exec (pure a : Attempt σ ε α) s = (.ok a, s) := rfl

theorem exec_bind (x : Attempt σ ε α) (f : α → Attempt σ ε β) (s : Session σ) :
    exec (x >>= f) s =
      match exec x s with
      | (.ok a, s') => exec (f a) s'
      | (.error e, s') => (.error e, s') := by
  change Act.exec (x.run >>= ExceptT.bindCont f) s = _
  rw [Act.exec_bind]
  unfold exec
  rcases Act.exec x.run s with ⟨r, s'⟩
  cases r <;> rfl

/-- What follows an attempt that succeeds goes on from where it ended. -/
theorem exec_bind_ok {x : Attempt σ ε α} {f : α → Attempt σ ε β} {s s' : Session σ} {a : α}
    (h : exec x s = (.ok a, s')) : exec (x >>= f) s = exec (f a) s' := by
  rw [exec_bind, h]

/-- What follows a result that is there goes on at once. -/
theorem exec_ofResult_bind_ok {r : Except ε α} {a : α} (h : r = .ok a) (f : α → Attempt σ ε β)
    (s : Session σ) : exec (ofResult r >>= f) s = exec (f a) s := by
  rw [h]
  rfl

/-- An attempt that fails ends what it is a part of. -/
theorem exec_bind_error {x : Attempt σ ε α} {f : α → Attempt σ ε β} {s s' : Session σ} {e : ε}
    (h : exec x s = (.error e, s')) : exec (x >>= f) s = (.error e, s') := by
  rw [exec_bind, h]

@[simp] theorem exec_mk (x : Act σ (Except ε α)) (s : Session σ) :
    exec (ExceptT.mk x : Attempt σ ε α) s = Act.exec x s := rfl

@[simp] theorem exec_ofAct (x : Act σ α) (s : Session σ) :
    exec (ofAct x : Attempt σ ε α) s = (.ok (Act.exec x s).1, (Act.exec x s).2) := rfl

@[simp] theorem exec_ofResult (r : Except ε α) (s : Session σ) :
    exec (ofResult r : Attempt σ ε α) s = (r, s) := rfl

@[simp] theorem exec_orElseAs (x : Attempt σ ε α) (f : ε → ε') (s : Session σ) :
    exec (x.orElseAs f) s = ((exec x s).1.mapError f, (exec x s).2) := rfl

theorem exec_onFailure (x : Attempt σ ε α) (cleanUp : ε → Act σ Unit) (s : Session σ) :
    exec (x.onFailure cleanUp) s =
      match exec x s with
      | (.ok a, s') => (.ok a, s')
      | (.error e, s') => (.error e, (Act.exec (cleanUp e) s').2) := by
  change Act.exec (x.run >>= _) s = _
  rw [Act.exec_bind]
  unfold exec
  rcases Act.exec x.run s with ⟨r, s'⟩
  cases r <;> rfl

/-- An attempt that told its failures in other words succeeds exactly if it did before. -/
theorem exec_orElseAs_ok {x : Attempt σ ε α} {f : ε → ε'} {s s' : Session σ} {a : α} :
    exec (x.orElseAs f) s = (.ok a, s') ↔ exec x s = (.ok a, s') := by
  rw [exec_orElseAs]
  rcases exec x s with ⟨r, t⟩
  cases r <;> simp

/-- An attempt that told its failures in other words fails with one exactly if it failed before for
the reason behind it. -/
theorem exec_orElseAs_eq_error {x : Attempt σ ε α} {f : ε → ε'} {s s' : Session σ} {e : ε'} :
    exec (x.orElseAs f) s = (.error e, s') ↔ ∃ cause, exec x s = (.error cause, s') ∧ e = f cause := by
  rw [exec_orElseAs]
  rcases exec x s with ⟨r, t⟩
  cases r with
  | ok a => simp
  | error cause =>
      constructor
      · rintro ⟨⟩
        exact ⟨cause, rfl, rfl⟩
      · rintro ⟨_, ⟨⟩, rfl⟩
        rfl

/-- A program of two attempts succeeds exactly if the first does and the second does after it. -/
theorem exec_bind_eq_ok {x : Attempt σ ε α} {f : α → Attempt σ ε β} {s s' : Session σ} {b : β} :
    exec (x >>= f) s = (.ok b, s') ↔
      ∃ a t, exec x s = (.ok a, t) ∧ exec (f a) t = (.ok b, s') := by
  rw [exec_bind]
  rcases exec x s with ⟨r, t⟩
  cases r with
  | ok a =>
      refine ⟨fun h => ⟨a, t, rfl, h⟩, ?_⟩
      rintro ⟨_, _, hx, hf⟩
      cases hx
      exact hf
  | error e => simp

/-- A program of two attempts fails exactly if the first fails or the second does after it. -/
theorem exec_bind_eq_error {x : Attempt σ ε α} {f : α → Attempt σ ε β} {s s' : Session σ} {e : ε} :
    exec (x >>= f) s = (.error e, s') ↔
      exec x s = (.error e, s') ∨ ∃ a t, exec x s = (.ok a, t) ∧ exec (f a) t = (.error e, s') := by
  rw [exec_bind]
  rcases exec x s with ⟨r, t⟩
  cases r with
  | ok a =>
      refine ⟨fun h => .inr ⟨a, t, rfl, h⟩, ?_⟩
      rintro (h | ⟨_, _, hx, hf⟩)
      · cases h
      · cases hx
        exact hf
  | error e₁ => simp

theorem exec_onFailure_eq_ok {x : Attempt σ ε α} {cleanUp : ε → Act σ Unit} {s s' : Session σ}
    {a : α} : exec (x.onFailure cleanUp) s = (.ok a, s') ↔ exec x s = (.ok a, s') := by
  rw [exec_onFailure]
  rcases exec x s with ⟨r, t⟩
  cases r <;> simp

theorem exec_onFailure_eq_error {x : Attempt σ ε α} {cleanUp : ε → Act σ Unit} {s s' : Session σ}
    {e : ε} : exec (x.onFailure cleanUp) s = (.error e, s') ↔
      ∃ t, exec x s = (.error e, t) ∧ s' = (Act.exec (cleanUp e) t).2 := by
  rw [exec_onFailure]
  rcases exec x s with ⟨r, t⟩
  cases r with
  | ok a => simp
  | error e₁ =>
      constructor
      · intro h
        cases h
        exact ⟨t, rfl, rfl⟩
      · rintro ⟨_, hx, rfl⟩
        cases hx
        rfl

end Attempt

end DailyBars
