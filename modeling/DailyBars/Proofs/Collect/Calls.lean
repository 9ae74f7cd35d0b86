import DailyBars.Collect.Batch
import DailyBars.Proofs.Collect.Walk

/-!
# What programs inherit from their calls

All that a batch does to the world it does by calling the broker and the stores. So a property of
attempts that passes from the parts of a program to the whole, and that writing to the log has
anyway, holds of the storing of a page and of a walk as soon as it holds of the calls that these
make. `Attempt.Inherited` says what passing on means; the programs are gone through only once, here.
-/

namespace DailyBars

/-- The event is one that a batch tells of its visits, its pages and its outcome. -/
def LogEvent.IsOfBatch (e : LogEvent) : Prop := e.source = .batch ∨ e.source = .outcome

instance (e : LogEvent) : Decidable e.IsOfBatch := inferInstanceAs (Decidable (_ ∨ _))

variable {σ : Type} {P : ∀ ⦃ε α : Type⦄, Attempt σ ε α → Prop}

/-! ### Remarks -/

/-- All that the action does is to write to the log, and not in the name of a batch. -/
def Act.Remarks (x : Act σ Unit) : Prop :=
  ∀ s, ∃ events, (∀ e ∈ events, ¬ e.IsOfBatch) ∧
    (x.exec s).2 = { s with log := s.log ++ events }

namespace Act.Remarks

theorem world {x : Act σ Unit} (h : x.Remarks) (s : Session σ) :
    (x.exec s).2.world = s.world := by
  obtain ⟨events, -, hx⟩ := h s
  rw [hx]

theorem pure : (Pure.pure () : Act σ Unit).Remarks := fun s =>
  ⟨[], by simp, by rw [List.append_nil]; rfl⟩

theorem emit {level : LogLevel} {source : LogSource} {message : String}
    {fields : List (String × LogValue)} (h : source ≠ .batch ∧ source ≠ .outcome) :
    (Act.emit level source message fields : Act σ Unit).Remarks := fun s =>
  ⟨[⟨level, source, message, fields⟩], by simpa [LogEvent.IsOfBatch] using h, rfl⟩

theorem logNext {ρ : Type} (source : PageSource σ ρ) (pageSize : Nat) (cursor : Date)
    (page : List ρ) : (source.logNext pageSize cursor page).Remarks := by
  unfold PageSource.logNext
  split
  · split
    · exact .pure
    · exact .emit (by decide)
  · exact .pure

end Act.Remarks

/-! ### Inheriting -/

/-- A property of attempts that programs have if their parts do, and that a remark always has. -/
structure Attempt.Inherited (P : ∀ ⦃ε α : Type⦄, Attempt σ ε α → Prop) : Prop where
  pure {ε α : Type} (a : α) : P (pure a : Attempt σ ε α)
  quiet {ε : Type} (x : Act σ Unit) : x.Remarks → P (Attempt.ofAct x : Attempt σ ε Unit)
  orElseAs {ε ε' α : Type} {x : Attempt σ ε α} (f : ε → ε') : P x → P (x.orElseAs f)
  bind {ε α β : Type} {x : Attempt σ ε α} {f : α → Attempt σ ε β} :
    P x → (∀ a, P (f a)) → P (x >>= f)

namespace Attempt.Inherited

variable {store : PriceStore σ} {key : InstrumentKey}

/-- What follows a result that is there already only has to have the property for that result. -/
theorem ofResult_bind {ε α β : Type} [Inhabited β] (inherited : Inherited P) {r : Except ε α}
    {f : α → Attempt σ ε β} (hr : P (Attempt.ofResult r)) (hf : ∀ a, r = .ok a → P (f a)) :
    P (Attempt.ofResult r >>= f) := by
  cases r with
  | ok a => exact hf a rfl
  | error e => exact inherited.bind (f := fun _ => Pure.pure default) hr fun _ => inherited.pure _

theorem saveFresh (inherited : Inherited P) (hsave : ∀ bars, P (store.saveAll key bars))
    (fetched : Nat) (fresh : List Bar) : P (store.saveFresh key fetched fresh) := by
  unfold PriceStore.saveFresh
  split
  · exact inherited.bind (inherited.quiet _ (.emit (by decide))) fun _ => inherited.pure 0
  · refine inherited.bind (inherited.orElseAs _ (hsave fresh)) fun saved => ?_
    exact inherited.bind (inherited.quiet _ (.emit (by decide))) fun _ => inherited.pure saved

theorem saveNew (inherited : Inherited P)
    (hdates : ∀ first last, P (store.existingDates key first last))
    (hsave : ∀ bars, P (store.saveAll key bars)) (page : List Bar) :
    P (store.saveNew key page) := by
  unfold PriceStore.saveNew
  dsimp only
  split
  · refine inherited.bind (inherited.orElseAs _ (hdates _ _)) fun existing => ?_
    exact inherited.saveFresh hsave _ _
  · exact inherited.pure 0

theorem walkFrom {ρ : Type} {source : PageSource σ ρ} {sink : PageSink σ ρ}
    (inherited : Inherited P) (hfetch : ∀ first last, P (source.fetch first last))
    (hsink : ∀ page, P (sink page)) (pageSize : Nat) (start cursor : Date)
    (progress : WalkProgress) : P (source.walkFrom sink pageSize start cursor progress) := by
  induction cursor using Date.lt_wellFounded.induction generalizing progress with
  | _ cursor ih =>
  rw [PageSource.walkFrom]
  refine inherited.bind (hfetch start cursor) fun page => ?_
  split
  · exact inherited.pure _
  · refine inherited.bind (hsink page) fun saved => ?_
    refine inherited.bind (inherited.quiet _ (.logNext source pageSize cursor page)) fun _ => ?_
    cases source.nextEnd? pageSize start cursor page with
    | none => exact inherited.pure _
    | some next => exact ih next.val next.property _

end Attempt.Inherited

end DailyBars
