import DailyBars.Proofs.Broker.TokenMoves
import Mathlib.Data.List.Nodup
import Mathlib.Logic.Function.Basic
import Mathlib.Logic.Relation

/-!
# Calls for tokens side by side

Any number of calls, each at its stage. In a step one of them does what its stage asks for, or time
passes; which of them it is nobody knows. What the issuer answers is written down.

At the lock of an account stand exactly the calls that wait for it or hold it, and only the first of
them holds it (`Line`).
-/

namespace DailyBars

variable {σ : Type}

/-! ### The calls -/

/-- How a caller says whose token it wants. -/
inductive TokenReference where
  /-- That of the account of a name or number. -/
  | named (reference : String)
  /-- That of the account that asks for prices. -/
  | forPrices

/-- An account number is hashed unless it is blank. -/
theorem AccountHasher.exists_hash_iff (k : AccountHasher) {number : String} :
    (∃ hash, k.hash number = .ok hash) ↔ Text.isBlankText number = false := by
  unfold hash
  cases hblank : Text.isBlankText number with
  | true => simp
  | false => simp

namespace TokenCache

variable (t : TokenCache σ)

/-- The account that a reference means. -/
def account? : TokenReference → Option Account
  | .named reference => t.config.findAccount? reference
  | .forPrices => t.config.defaultAccount?

/-- The call of a caller. -/
def callTo (caller : Nat) : TokenReference → Except BrokerError TokenCall
  | .named reference => t.callFor reference caller
  | .forPrices => t.callForDefault caller

/-- Whatever the reference to an account, the call is the same. -/
theorem callTo_eq_callOf {r : TokenReference} {a : Account} (h : t.account? r = some a)
    (caller : Nat) : t.callTo caller r = t.callOf a caller := by
  cases r with
  | named reference =>
      have h : t.config.findAccount? reference = some a := h
      simp only [callTo, callFor, h]
  | forPrices =>
      have h : t.config.defaultAccount? = some a := h
      simp only [callTo, callForDefault, h]

/-- There is a call for each account whose number is not blank. -/
theorem exists_callOf {a : Account} (h : Text.isBlankText a.number = false) :
    ∃ hash, ∀ caller, t.callOf a caller = .ok ⟨a, hash, caller⟩ := by
  obtain ⟨hash, hhash⟩ := t.hasher.exists_hash_iff.mpr h
  exact ⟨hash, fun caller => by rw [callOf, hhash]⟩

end TokenCache

/-- What the issuer answered, with the instant at which it was asked. -/
abbrev IssuerAnswer := Instant × Except BrokerError (Option TokenReply)

/-- Calls for tokens, by the numbers of their callers. -/
structure TokenRun (σ : Type) where
  session : Session σ
  stages : Nat → TokenStage
  /-- All answers of the issuer, the last one first. -/
  replies : List IssuerAnswer

namespace TokenRun

/-- Calls that have done nothing yet. -/
def start (s : Session σ) : TokenRun σ := ⟨s, fun _ => .reading false, []⟩

/-- What the issuer answered in the step between two stages. -/
def answered : TokenStage → TokenStage → List IssuerAnswer
  | .issuing, .weighing issuedAt reply => [(issuedAt, reply)]
  | _, _ => []

/-- A call goes on to a stage. -/
def goOn (w : TokenRun σ) (i : Nat) (stage : TokenStage) (s : Session σ) : TokenRun σ :=
  ⟨s, Function.update w.stages i stage, answered (w.stages i) stage ++ w.replies⟩

/-- A call does what its stage asks for. -/
def call (t : TokenCache σ) (calls : Nat → TokenCall) (w : TokenRun σ) (i : Nat) : TokenRun σ :=
  let r := Act.exec (t.step (calls i) (w.stages i)) w.session
  w.goOn i r.1 r.2

/-- Time passes. -/
def pass (w : TokenRun σ) (nanos : Nat) : TokenRun σ :=
  { w with session := { w.session with clock := w.session.clock.advance nanos } }

end TokenRun

/-- One step of the calls. -/
inductive TokenStep (t : TokenCache σ) (calls : Nat → TokenCall) (w : TokenRun σ) :
    TokenRun σ → Prop where
  | call (i : Nat) : TokenStep t calls w (w.call t calls i)
  | pass (nanos : Nat) : TokenStep t calls w (w.pass nanos)

/-- Calls at stages that others come to from theirs. -/
abbrev TokenRun.Leads (t : TokenCache σ) (calls : Nat → TokenCall) : TokenRun σ → TokenRun σ → Prop :=
  Relation.ReflTransGen (TokenStep t calls)

theorem TokenRun.leads_foldl {t : TokenCache σ} {calls : Nat → TokenCall} (callers : List Nat)
    (w : TokenRun σ) : Leads t calls w (callers.foldl (·.call t calls ·) w) := by
  induction callers generalizing w with
  | nil => exact .refl
  | cons i callers ih => exact .head (.call i) (ih _)

theorem TokenCache.finish_succ (t : TokenCache σ) (c : TokenCall) (limit : Nat) {stage : TokenStage}
    (h : ∀ result, stage ≠ .done result) :
    t.finish c (limit + 1) stage = t.step c stage >>= t.finish c limit := by
  cases stage with
  | done result => exact absurd rfl (h result)
  | _ => rfl

/-- A call that has no company is one of these runs. -/
theorem TokenRun.leads_finish (t : TokenCache σ) (calls : Nat → TokenCall) (i limit : Nat)
    (w : TokenRun σ) : ∃ w', Leads t calls w w' ∧
      (w'.stages i, w'.session) = Act.exec (t.finish (calls i) limit (w.stages i)) w.session := by
  induction limit generalizing w with
  | zero =>
      refine ⟨w, .refl, ?_⟩
      cases w.stages i <;> rfl
  | succ limit ih =>
      by_cases hdone : ∃ result, w.stages i = .done result
      · obtain ⟨result, hresult⟩ := hdone
        exact ⟨w, .refl, by rw [hresult]; rfl⟩
      · obtain ⟨w', hleads, hend⟩ := ih (w.call t calls i)
        have hstage : (w.call t calls i).stages i =
            (Act.exec (t.step (calls i) (w.stages i)) w.session).1 := Function.update_self ..
        refine ⟨w', .head (.call i) hleads, ?_⟩
        rw [t.finish_succ (calls i) limit fun result hresult => hdone ⟨result, hresult⟩,
          Act.exec_bind, ← hstage]
        exact hend

/-! ### The line at the lock -/

namespace TokenStage

/-- Whether a call holds the account's lock. -/
def holds : TokenStage → Bool
  | reading locked | judging locked _ => locked
  | issuing | weighing .. | keeping .. | writing .. | releasing _ => true
  | joining | waiting | done _ => false

/-- Whether a call is in line for the lock or holds it. -/
def inLine : TokenStage → Bool
  | waiting => true
  | stage => stage.holds

/-- Whether a call carries a token that is not yet where others look for it. -/
def carries : TokenStage → Bool
  | weighing .. | keeping .. | writing .. => true
  | _ => false

theorem inLine_of_holds {stage : TokenStage} (h : stage.holds) : stage.inLine := by
  cases stage <;> first | exact h | rfl

theorem holds_of_carries {stage : TokenStage} (h : stage.carries) : stage.holds := by
  cases stage <;> first | rfl | cases h

end TokenStage

theorem AccountLocks.queue_join (l : AccountLocks) (account : String) (caller : Nat) :
    (l.join account caller).queue account = l.queue account ++ [caller] :=
  (l.queue_setQueue _ _ _).trans (if_pos rfl)

theorem AccountLocks.queue_release (l : AccountLocks) (account : String) :
    (l.release account).queue account = (l.queue account).tail :=
  (l.queue_setQueue _ _ _).trans (if_pos rfl)

/-- The callers in a queue are those that are in line, and only the first of them holds the lock. -/
structure Line (queue : List Nat) (stages : Nat → TokenStage) : Prop where
  nodup : queue.Nodup
  mem : ∀ i, i ∈ queue ↔ (stages i).inLine
  head : ∀ i, (stages i).holds → queue.head? = some i

namespace Line

variable {queue : List Nat} {stages : Nat → TokenStage} {stage : TokenStage} {i j : Nat}

theorem start : Line [] fun _ => .reading false :=
  ⟨List.nodup_nil, by simp [TokenStage.inLine, TokenStage.holds], by simp [TokenStage.holds]⟩

theorem eq_of_holds (h : Line queue stages) (hi : (stages i).holds) (hj : (stages j).holds) :
    i = j :=
  Option.some.inj ((h.head i hi).symm.trans (h.head j hj))

/-- A call that stays in line, or out of it, may get the lock if it is the first. -/
theorem goOn (h : Line queue stages) (hline : stage.inLine = (stages i).inLine)
    (hholds : stage.holds → queue.head? = some i) :
    Line queue (Function.update stages i stage) := by
  refine ⟨h.nodup, fun j => ?_, fun j hj => ?_⟩
  · by_cases hji : j = i
    · subst hji
      rw [Function.update_self, hline]
      exact h.mem j
    · rw [Function.update_of_ne hji]
      exact h.mem j
  · by_cases hji : j = i
    · subst hji
      rw [Function.update_self] at hj
      exact hholds hj
    · rw [Function.update_of_ne hji] at hj
      exact h.head j hj

/-- A call gets in line, at its end. -/
theorem join (h : Line queue stages) (hi : (stages i).inLine = false) :
    Line (queue ++ [i]) (Function.update stages i .waiting) := by
  have hnew : i ∉ queue := fun hmem => by
    rw [h.mem i, hi] at hmem
    cases hmem
  refine ⟨?_, fun j => ?_, fun j hj => ?_⟩
  · rw [List.nodup_append]
    refine ⟨h.nodup, List.nodup_singleton i, ?_⟩
    rintro a ha b hb rfl
    rw [List.mem_singleton] at hb
    exact hnew (hb ▸ ha)
  · by_cases hji : j = i
    · subst hji
      simp [TokenStage.inLine]
    · rw [Function.update_of_ne hji, ← h.mem j]
      simp [hji]
  · by_cases hji : j = i
    · subst hji
      rw [Function.update_self] at hj
      cases hj
    · rw [Function.update_of_ne hji] at hj
      rw [List.head?_append, h.head j hj]
      rfl

/-- The holder of the lock leaves the line. -/
theorem leave (h : Line queue stages) (hi : (stages i).holds) (hout : stage.inLine = false) :
    Line queue.tail (Function.update stages i stage) := by
  obtain ⟨rest, rfl⟩ : ∃ rest, queue = i :: rest := by
    have hhead := h.head i hi
    cases queue with
    | nil => cases hhead
    | cons k rest =>
        cases hhead
        exact ⟨rest, rfl⟩
  obtain ⟨hfirst, hrest⟩ := List.nodup_cons.mp h.nodup
  have hnobody : ∀ j, ((Function.update stages i stage) j).holds → False := by
    intro j hj
    by_cases hji : j = i
    · subst hji
      rw [Function.update_self] at hj
      rw [TokenStage.inLine_of_holds hj] at hout
      cases hout
    · rw [Function.update_of_ne hji] at hj
      exact hji (h.eq_of_holds hj hi)
  refine ⟨hrest, fun j => ?_, fun j hj => (hnobody j hj).elim⟩
  by_cases hji : j = i
  · subst hji
    rw [Function.update_self, hout]
    exact ⟨fun hmem => absurd hmem hfirst, nofun⟩
  · rw [Function.update_of_ne hji, ← h.mem j]
    simp [hji]

end Line

end DailyBars
