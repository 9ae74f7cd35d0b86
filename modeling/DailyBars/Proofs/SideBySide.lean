import DailyBars.Proofs.Session

/-!
# Two sessions side by side

Two runs of a program are compared whose worlds are not the same, but stand in a relation. The clocks
go alike, and so do the logs as far as everybody is shown them: events for whoever looks for a fault
are left out. `Act.Alike` says of two programs that they keep all this up and come to results in a
relation; there is one rule for each way in which programs are put together.
-/

namespace DailyBars

variable {σ σ' τ τ' ε ε' α α' β β' : Type}

/-! ### Results -/

/-- Both succeeded, with values in a relation, or both failed in the same way. -/
inductive SameEnd (R : α → β → Prop) : Except ε α → Except ε β → Prop where
  | ok {a : α} {b : β} : R a b → SameEnd R (.ok a) (.ok b)
  | error (e : ε) : SameEnd R (.error e) (.error e)

namespace SameEnd

variable {R : α → β → Prop} {S : α' → β' → Prop} {x : Except ε α} {y : Except ε β}

theorem refl {R : α → α → Prop} (h : ∀ a, R a a) (x : Except ε α) : SameEnd R x x := by
  cases x with
  | ok a => exact .ok (h a)
  | error e => exact .error e

theorem eq {x y : Except ε α} (h : SameEnd (fun a b => a = b) x y) : x = y := by
  cases h with
  | ok hab => rw [hab]
  | error e => rfl

theorem bind {f : α → Except ε α'} {g : β → Except ε β'} (h : SameEnd R x y)
    (hf : ∀ a b, R a b → SameEnd S (f a) (g b)) : SameEnd S (x >>= f) (y >>= g) := by
  cases h with
  | ok hab => exact hf _ _ hab
  | error e => exact .error e

theorem map {f : α → α'} {g : β → β'} (h : SameEnd R x y) (hf : ∀ a b, R a b → S (f a) (g b)) :
    SameEnd S (x.map f) (y.map g) := by
  cases h with
  | ok hab => exact .ok (hf _ _ hab)
  | error e => exact .error e

theorem mapError (f : ε → ε') (h : SameEnd R x y) : SameEnd R (x.mapError f) (y.mapError f) := by
  cases h with
  | ok hab => exact .ok hab
  | error e => exact .error (f e)

end SameEnd

theorem optionRel_refl {R : α → α → Prop} (h : ∀ a, R a a) (x : Option α) : Option.Rel R x x := by
  cases x with
  | none => exact .none
  | some a => exact .some (h a)

/-! ### Sessions -/

/-- What a log shows to everybody. -/
def shownLog (log : List LogEvent) : List LogEvent := log.filter (·.level != .debug)

@[simp] theorem shownLog_append (log more : List LogEvent) :
    shownLog (log ++ more) = shownLog log ++ shownLog more :=
  List.filter_append ..

/-- The worlds stand in a relation, it is the same time, and the logs show the same. -/
structure Session.Alike (W : σ → σ' → Prop) (s : Session σ) (t : Session σ') : Prop where
  world : W s.world t.world
  clock : s.clock = t.clock
  log : shownLog s.log = shownLog t.log

/-! ### Actions -/

/-- Run from sessions that are alike, the actions come to results in a relation and to sessions that
are alike again. -/
def Act.Alike (W : σ → σ' → Prop) (R : α → β → Prop) (x : Act σ α) (y : Act σ' β) : Prop :=
  ∀ s t, Session.Alike W s t →
    R (x.exec s).1 (y.exec t).1 ∧ Session.Alike W (x.exec s).2 (y.exec t).2

namespace Act.Alike

variable {W : σ → σ' → Prop} {R : α → β → Prop} {S : α' → β' → Prop} {x : Act σ α} {y : Act σ' β}

theorem pure {a : α} {b : β} (h : R a b) : Act.Alike W R (pure a) (pure b) :=
  fun _ _ hs => ⟨h, hs⟩

theorem bind {f : α → Act σ α'} {g : β → Act σ' β'} (h : Act.Alike W R x y)
    (hf : ∀ a b, R a b → Act.Alike W S (f a) (g b)) : Act.Alike W S (x >>= f) (y >>= g) := by
  intro s t hs
  obtain ⟨hab, hmid⟩ := h s t hs
  exact hf _ _ hab _ _ hmid

theorem now : Act.Alike W (fun a b => a = b) (Act.now (σ := σ)) (Act.now (σ := σ')) :=
  fun _ _ hs => ⟨congrArg Clock.wall hs.clock, hs⟩

theorem uptime : Act.Alike W (fun a b => a = b) (Act.uptime (σ := σ)) (Act.uptime (σ := σ')) :=
  fun _ _ hs => ⟨congrArg Clock.uptime hs.clock, hs⟩

theorem pass (nanos : Nat) :
    Act.Alike W (fun _ _ => True) (Act.pass (σ := σ) nanos) (Act.pass (σ := σ') nanos) := by
  intro s t hs
  exact ⟨trivial, hs.world, congrArg (Clock.advance · nanos) hs.clock, hs.log⟩

theorem passUntil (time : Nat) :
    Act.Alike W (fun _ _ => True) (Act.passUntil (σ := σ) time) (Act.passUntil (σ := σ') time) := by
  intro s t hs
  refine ⟨trivial, hs.world, ?_, hs.log⟩
  exact congrArg (fun c : Clock => c.advance (time - c.uptime)) hs.clock

/-- Both write the same event. -/
theorem emit (level : LogLevel) (source : LogSource) (message : String)
    (fields : List (String × LogValue)) : Act.Alike W (fun _ _ => True)
      (Act.emit (σ := σ) level source message fields)
      (Act.emit (σ := σ') level source message fields) := by
  intro s t hs
  refine ⟨trivial, hs.world, hs.clock, ?_⟩
  simp [hs.log]

/-- What is written for whoever looks for a fault need not be the same. -/
theorem emit_debug {source source' : LogSource} {message message' : String}
    {fields fields' : List (String × LogValue)} : Act.Alike W (fun _ _ => True)
      (Act.emit (σ := σ) .debug source message fields)
      (Act.emit (σ := σ') .debug source' message' fields') := by
  intro s t hs
  refine ⟨trivial, hs.world, hs.clock, ?_⟩
  simpa [shownLog] using hs.log

theorem onPart {p : Part σ τ} {q : Part σ' τ'} {f : τ → α × τ} {g : τ' → β × τ'}
    (h : ∀ w v, W w v → R (f (p.get w)).1 (g (q.get v)).1 ∧
      W (p.set (f (p.get w)).2 w) (q.set (g (q.get v)).2 v)) :
    Act.Alike W R (Act.onPart p f) (Act.onPart q g) := by
  intro s t hs
  obtain ⟨hab, hworld⟩ := h _ _ hs.world
  exact ⟨hab, hworld, hs.clock, hs.log⟩

end Act.Alike

/-! ### Attempts -/

/-- Run from sessions that are alike, the attempts end in the same way, in sessions that are alike. -/
def Attempt.Alike (W : σ → σ' → Prop) (R : α → β → Prop) (x : Attempt σ ε α)
    (y : Attempt σ' ε β) : Prop :=
  Act.Alike W (SameEnd R) x.run y.run

namespace Attempt.Alike

variable {W : σ → σ' → Prop} {R : α → β → Prop} {S : α' → β' → Prop} {x : Attempt σ ε α}
  {y : Attempt σ' ε β}

theorem pure {a : α} {b : β} (h : R a b) :
    Attempt.Alike W R (pure a : Attempt σ ε α) (pure b : Attempt σ' ε β) :=
  Act.Alike.pure (.ok h)

theorem throw (e : ε) :
    Attempt.Alike W R (throw e : Attempt σ ε α) (throw e : Attempt σ' ε β) :=
  Act.Alike.pure (.error e)

theorem bind {f : α → Attempt σ ε α'} {g : β → Attempt σ' ε β'} (h : Attempt.Alike W R x y)
    (hf : ∀ a b, R a b → Attempt.Alike W S (f a) (g b)) :
    Attempt.Alike W S (x >>= f) (y >>= g) := by
  intro s t hs
  obtain ⟨hr, hmid⟩ := h s t hs
  rw [Act.exec_run, Act.exec_run] at hr hmid
  rw [Act.exec_run, Act.exec_run, Attempt.exec_bind, Attempt.exec_bind]
  rcases hx : x.exec s with ⟨r, s'⟩
  rcases hy : y.exec t with ⟨r', t'⟩
  rw [hx, hy] at hr hmid
  cases hr with
  | ok hab => exact hf _ _ hab _ _ hmid
  | error e => exact ⟨.error e, hmid⟩

theorem ofAct {x : Act σ α} {y : Act σ' β} (h : Act.Alike W R x y) :
    Attempt.Alike W R (.ofAct x : Attempt σ ε α) (.ofAct y : Attempt σ' ε β) :=
  Act.Alike.bind h fun _ _ hab => Act.Alike.pure (.ok hab)

theorem ofResult {r : Except ε α} {r' : Except ε β} (h : SameEnd R r r') :
    Attempt.Alike W R (.ofResult r : Attempt σ ε α) (.ofResult r' : Attempt σ' ε β) :=
  Act.Alike.pure h

theorem orElseAs (f : ε → ε') (h : Attempt.Alike W R x y) :
    Attempt.Alike W R (x.orElseAs f) (y.orElseAs f) :=
  Act.Alike.bind h fun _ _ hr => Act.Alike.pure (hr.mapError f)

end Attempt.Alike

end DailyBars
