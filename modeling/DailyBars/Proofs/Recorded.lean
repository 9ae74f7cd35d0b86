import DailyBars.Proofs.Session

/-!
# Calls on record

To say which calls a program makes, the parties that it calls are replaced by ones that keep a record:
they do and answer the same, and note every call, with its answer, beside the world. A program cannot
tell the difference, so what is on record after it has run is what it has called.
-/

namespace DailyBars

variable {σ κ ε ε' α β : Type}

/-- The session with a record beside its world. -/
def Session.withRecord (s : Session σ) (calls : List κ) : Session (σ × List κ) :=
  ⟨(s.world, calls), s.clock, s.log⟩

/-- The session without the record beside its world. -/
def Session.withoutRecord (s : Session (σ × List κ)) : Session σ := ⟨s.world.1, s.clock, s.log⟩

/-- An attempt that is noted when it is over. The note may tell the answer, and the world in which the
attempt began. -/
def Attempt.recorded (x : Attempt σ ε α) (note : σ → Except ε α → κ) : Attempt (σ × List κ) ε α :=
  ExceptT.mk fun s =>
    let r := x.exec s.withoutRecord
    (r.1, r.2.withRecord (s.world.2 ++ [note s.world.1 r.1]))

/-- On record an attempt answers as it does without, and one note is added. -/
theorem Attempt.exec_recorded {x : Attempt σ ε α} {s s' : Session σ} {answer : Except ε α}
    (h : x.exec s = (answer, s')) (note : σ → Except ε α → κ) (calls : List κ) :
    (x.recorded note).exec (s.withRecord calls) =
      (answer, s'.withRecord (calls ++ [note s.world answer])) := by
  change ((x.exec s).1, (x.exec s).2.withRecord (calls ++ [note s.world (x.exec s).1])) = _
  rw [h]

/-- An action beside a record, which it leaves as it is. -/
def Act.unrecorded (x : Act σ α) : Act (σ × List κ) α := fun s =>
  ((x.exec s.withoutRecord).1, (x.exec s.withoutRecord).2.withRecord s.world.2)

/-- An attempt beside a record, which it leaves as it is. -/
def Attempt.unrecorded (x : Attempt σ ε α) : Attempt (σ × List κ) ε α := ExceptT.mk x.run.unrecorded

/-- A program on record does from a session what the program does without, and adds some notes. -/
structure Attempt.Records (x : Attempt σ ε α) (x' : Attempt (σ × List κ) ε α) (s : Session σ)
    (notes : List κ) : Prop where
  exec : ∀ calls,
    x'.exec (s.withRecord calls) = ((x.exec s).1, (x.exec s).2.withRecord (calls ++ notes))

namespace Attempt.Records

variable {x : Attempt σ ε α} {x' : Attempt (σ × List κ) ε α} {s s₁ : Session σ} {notes more : List κ}

theorem recorded (x : Attempt σ ε α) (note : σ → Except ε α → κ) (s : Session σ) :
    x.Records (x.recorded note) s [note s.world (x.exec s).1] :=
  ⟨fun _ => rfl⟩

theorem unrecorded (x : Attempt σ ε α) (s : Session σ) :
    x.Records (x.unrecorded : Attempt (σ × List κ) ε α) s [] := by
  refine ⟨fun calls => ?_⟩
  rw [List.append_nil]
  rfl

theorem pure (a : α) (s : Session σ) :
    Records (Pure.pure a : Attempt σ ε α) (Pure.pure a : Attempt (σ × List κ) ε α) s [] := by
  refine ⟨fun calls => ?_⟩
  rw [List.append_nil]
  rfl

theorem emit (level : LogLevel) (source : LogSource) (message : String)
    (fields : List (String × LogValue)) (s : Session σ) :
    Records (.ofAct (Act.emit level source message fields) : Attempt σ ε Unit)
      (.ofAct (Act.emit level source message fields) : Attempt (σ × List κ) ε Unit) s [] := by
  refine ⟨fun calls => ?_⟩
  rw [List.append_nil]
  rfl

theorem orElseAs (h : x.Records x' s notes) (f : ε → ε') :
    (x.orElseAs f).Records (x'.orElseAs f) s notes := by
  refine ⟨fun calls => ?_⟩
  rw [exec_orElseAs, exec_orElseAs, h.exec calls]

/-- What follows an attempt that succeeds adds its notes to those of the attempt. -/
theorem bind {f : α → Attempt σ ε β} {f' : α → Attempt (σ × List κ) ε β} {a : α}
    (h : x.Records x' s notes) (hok : x.exec s = (.ok a, s₁)) (hf : (f a).Records (f' a) s₁ more) :
    (x >>= f).Records (x' >>= f') s (notes ++ more) := by
  refine ⟨fun calls => ?_⟩
  have hok' := h.exec calls
  rw [hok] at hok'
  rw [exec_bind_ok hok, exec_bind_ok hok', hf.exec, List.append_assoc]

end Attempt.Records

end DailyBars
