import DailyBars.Broker.TokenCache
import DailyBars.Proofs.Calendar.Elapsed
import DailyBars.Proofs.Cipher.Seal
import DailyBars.Proofs.Session

/-!
# What a call for a token does in one step

The store of tokens and their issuer are whatever they are, as long as they leave the desk of the
process alone and the store either answers every operation of a run or fails every one. `TokenMove`
lists all that a step of a call can do, and `move_step` says that there is nothing else.
-/

namespace DailyBars

variable {σ : Type}

/-- What a store is like in a run. -/
structure StoreView (σ : Type) where
  /-- The text that it gives for a key at an uptime, in a world that nobody changes meanwhile. -/
  texts : σ → String → Nat → Option String
  /-- Whether it answers every operation; if not, it fails every operation. -/
  answers : Bool
  /-- The worlds from which on it does. -/
  steady : σ → Prop

namespace TokenCache

variable {t : TokenCache σ} {v : StoreView σ} {s s' s'' : Session σ} {d d' : TokenDesk}

/-! ### The store and the issuer -/

/-- The second session is the first one some time later, with a given desk. -/
structure Follows (t : TokenCache σ) (v : StoreView σ) (d : TokenDesk) (s s' : Session σ) : Prop where
  desk : t.desk.get s'.world = d
  later : s.clock.Later s'.clock
  steady : v.steady s.world → v.steady s'.world

/-- The second session is the first one some time later, with a given desk and the same texts in the
store. -/
structure Puts (t : TokenCache σ) (v : StoreView σ) (d : TokenDesk) (s s' : Session σ) : Prop
    extends t.Follows v d s s' where
  texts : v.texts s'.world = v.texts s.world

/-- The second session is the first one some time later, as far as desk and store are concerned. -/
abbrev Keeps (t : TokenCache σ) (v : StoreView σ) (s s' : Session σ) : Prop :=
  t.Puts v (t.desk.get s.world) s s'

theorem Keeps.refl (s : Session σ) : t.Keeps v s s := ⟨⟨rfl, .refl _, id⟩, rfl⟩

theorem Follows.trans (h : t.Follows v d s s') (h' : t.Follows v d' s' s'') : t.Follows v d' s s'' :=
  ⟨h'.desk, h.later.trans h'.later, fun hs => h'.steady (h.steady hs)⟩

/-- What is logged makes no difference. -/
theorem Follows.log (h : t.Follows v d s s') (log : List LogEvent) :
    t.Follows v d s { s' with log := log } :=
  ⟨h.desk, h.later, h.steady⟩

theorem Puts.trans (h : t.Puts v d s s') (h' : t.Keeps v s' s'') : t.Puts v d s s'' :=
  ⟨⟨h'.desk.trans h.desk, h.later.trans h'.later, fun hs => h'.steady (h.steady hs)⟩,
    h'.texts.trans h.texts⟩

/-- The desk is a part of its own, and neither the issuer nor whoever makes nonces changes the desk or
the store. -/
structure Separate (t : TokenCache σ) (v : StoreView σ) : Prop where
  desk_lawful : t.desk.Lawful
  texts_desk : ∀ d w, v.texts (t.desk.set d w) = v.texts w
  steady_desk : ∀ d w, v.steady w → v.steady (t.desk.set d w)
  issuer : ∀ a s, t.Keeps v s ((t.issuer a).exec s).2
  nonce : ∀ s, t.Keeps v s (Act.exec t.freshNonce s).2

/-- A store that answers every operation. It gives what was written until the time of this is over,
and what it does not give any more it does not give again. -/
structure StoreAnswers (t : TokenCache σ) (v : StoreView σ) : Prop where
  get : ∀ key s, v.steady s.world → ∃ time s',
    (t.store.get key).exec s = (.ok (v.texts s.world key time), s') ∧ t.Keeps v s s' ∧
      s.clock.uptime ≤ time ∧ time ≤ s'.clock.uptime
  set : ∀ key text ttl s, v.steady s.world → ∃ s',
    (t.store.set key text ttl).exec s = (.ok (), s') ∧ t.Follows v (t.desk.get s.world) s s' ∧
      ∀ time, s'.clock.uptime ≤ time → time < s.clock.uptime + ttl →
        v.texts s'.world key time = some text
  fades : ∀ w key now time, now ≤ time →
    v.texts w key time = v.texts w key now ∨ v.texts w key time = none

/-- A store that fails every operation. -/
structure StoreFails (t : TokenCache σ) (v : StoreView σ) : Prop where
  get : ∀ key s, v.steady s.world → ∃ e s',
    (t.store.get key).exec s = (.error e, s') ∧ t.Keeps v s s'
  set : ∀ key text ttl s, v.steady s.world → ∃ e s',
    (t.store.set key text ttl).exec s = (.error e, s') ∧ t.Keeps v s s'

/-- The store answers every operation or fails every operation, as it is said to. -/
structure StoreLaw (t : TokenCache σ) (v : StoreView σ) : Prop where
  answers : v.answers = true → t.StoreAnswers v
  fails : v.answers = false → t.StoreFails v

theorem keeps_emit (level : LogLevel) (source : LogSource) (message : String)
    (fields : List (String × LogValue)) (s : Session σ) :
    t.Keeps v s (Act.exec (Act.emit level source message fields) s).2 :=
  ⟨⟨rfl, .refl _, id⟩, rfl⟩

theorem Separate.puts_onPart {α : Type} (h : t.Separate v) (f : TokenDesk → α × TokenDesk)
    (s : Session σ) : t.Puts v (f (t.desk.get s.world)).2 s (Act.exec (Act.onPart t.desk f) s).2 :=
  ⟨⟨h.desk_lawful _ _, .refl _, h.steady_desk _ _⟩, h.texts_desk _ _⟩

/-! ### What a call finds -/

/-- The token in a text of the store, if there is one that can be opened. -/
def open? (t : TokenCache σ) (text : Option String) : Option String :=
  text.bind fun box => (t.tokenSeal.decrypt box).toOption

/-- The token that an answer of the store gives, with the desk as it is at an instant. -/
def found? (t : TokenCache σ) (hash : String) (d : TokenDesk) (now : Instant) :
    Except StorageError (Option String) → Option String
  | .ok text => t.open? text
  | .error _ => d.servable? hash now

theorem exec_judge (h : t.Separate v) (c : TokenCall)
    (answer : Except StorageError (Option String)) (s : Session σ) :
    (Act.exec (t.judge c answer) s).1 =
        t.found? c.hash (t.desk.get s.world) s.clock.wall answer ∧
      t.Keeps v s (Act.exec (t.judge c answer) s).2 := by
  have hself : t.Keeps v s s := .refl s
  unfold judge
  cases answer with
  | error e =>
      dsimp only
      rw [Act.exec_bind, Act.exec_bind, Act.exec_now]
      have hwarned : t.Keeps v s
          (Act.exec (warn "Token cache read failed, using in-process token" e.message) s).2 :=
        keeps_emit .warn .tokens _ [("error", .text e.message)] s
      exact ⟨rfl, hwarned.trans (h.puts_onPart (fun d => (d.servable? c.hash s.clock.wall, d)) _)⟩
  | ok text =>
      cases text with
      | none => exact ⟨rfl, hself⟩
      | some box =>
          have hopen : t.found? c.hash (t.desk.get s.world) s.clock.wall (.ok (some box)) =
              (t.tokenSeal.decrypt box).toOption := rfl
          rw [hopen]
          dsimp only
          cases t.tokenSeal.decrypt box with
          | ok token => exact ⟨rfl, hself⟩
          | error e =>
              exact ⟨rfl, keeps_emit .warn .tokens
                "Cached token could not be decrypted, ignoring entry" [("error", .text e.message)] s⟩

/-- The stage after the issuer's answer, weighed at an instant. -/
def weighed (issuedAt now : Instant) : Except BrokerError (Option TokenReply) → TokenStage
  | .error e => .releasing (.error e)
  | .ok none => .releasing (.error (.unauthorized "토큰 발급 응답이 비어 있습니다"))
  | .ok (some reply) =>
    match reply.token? with
    | none => .releasing (.error (.unauthorized "토큰 발급 응답에 access_token이 없습니다"))
    | some token =>
      match (reply.servedUntil? issuedAt).filter fun u => decide (0 < u.since now) with
      | some validUntil => .keeping token validUntil (validUntil.since now).toNat
      | none => .releasing (.ok token)

/-- Weighing an answer changes nothing but the log. -/
theorem exec_weigh_session (c : TokenCall) (issuedAt : Instant)
    (reply : Except BrokerError (Option TokenReply)) (s : Session σ) :
    ∃ log, Act.exec (weigh c issuedAt reply) s =
      (weighed issuedAt s.clock.wall reply, { s with log := log }) := by
  unfold weigh weighed
  cases reply with
  | error e => exact ⟨s.log, rfl⟩
  | ok reply =>
      cases reply with
      | none => exact ⟨s.log, rfl⟩
      | some reply =>
          dsimp only
          cases reply.token? with
          | none => exact ⟨s.log, rfl⟩
          | some token =>
              dsimp only
              rw [Act.exec_bind, Act.exec_now]
              dsimp only
              cases (reply.servedUntil? issuedAt).filter _ with
              | some validUntil => exact ⟨s.log, rfl⟩
              | none => exact ⟨_, rfl⟩

theorem exec_weigh (c : TokenCall) (issuedAt : Instant)
    (reply : Except BrokerError (Option TokenReply)) (s : Session σ) :
    (Act.exec (weigh c issuedAt reply) s).1 = weighed issuedAt s.clock.wall reply ∧
      t.Keeps v s (Act.exec (weigh c issuedAt reply) s).2 := by
  obtain ⟨log, hweighed⟩ := exec_weigh_session c issuedAt reply s
  rw [hweighed]
  exact ⟨rfl, ⟨rfl, .refl _, id⟩, rfl⟩

/-- What a store gives after a token was written to it for a length of time. -/
def Written (t : TokenCache σ) (v : StoreView σ) (key token : String)
    (ttl : Nat) (s s' : Session σ) : Prop :=
  ∀ time, s'.clock.uptime ≤ time → time < s.clock.uptime + ttl →
    t.open? (v.texts s'.world key time) = some token

theorem exec_write (h : t.Separate v) (hstore : t.StoreLaw v) (c : TokenCall) (token : String)
    (ttl : Nat) (s : Session σ) (hsteady : v.steady s.world) :
    t.Follows v (t.desk.get s.world) s (Act.exec (t.write c token ttl) s).2 ∧
      (v.answers = true → token.isEmpty = false →
        t.Written v c.key token ttl s (Act.exec (t.write c token ttl) s).2) := by
  unfold write
  rw [Act.exec_bind]
  have hnonce := h.nonce s
  rcases hexec : Act.exec t.freshNonce s with ⟨nonce, s₁⟩
  rw [hexec] at hnonce
  have hdesk : t.desk.get s₁.world = t.desk.get s.world := hnonce.desk
  dsimp only
  cases hbox : t.tokenSeal.encrypt nonce token with
  | error e =>
      refine ⟨hnonce.toFollows.log _, fun _ hne => ?_⟩
      -- Sealing fails for the empty token only.
      obtain ⟨box, hsealed, -⟩ := t.tokenSeal.exists_encrypt nonce hne
      cases hbox.symm.trans hsealed
  | ok box =>
      dsimp only
      rw [Act.exec_bind, Act.exec_run]
      cases hanswers : v.answers with
      | true =>
          obtain ⟨s₂, hset, hfollows, htexts⟩ :=
            (hstore.answers hanswers).set c.key box ttl s₁ (hnonce.steady hsteady)
          rw [hset]
          rw [hdesk] at hfollows
          refine ⟨(hnonce.toFollows.trans hfollows).log _, fun _ _ time hfrom hto => ?_⟩
          -- The nonce may take time, so the store counts from a later time than the statement.
          have huptime : s.clock.uptime ≤ s₁.clock.uptime := hnonce.later.uptime_le
          have htext : v.texts s₂.world c.key time = some box :=
            htexts time hfrom (Nat.lt_of_lt_of_le hto (Nat.add_le_add_right huptime ttl))
          change t.open? (v.texts s₂.world c.key time) = some token
          rw [htext, open?, Option.bind_some, TokenSeal.decrypt_of_encrypt hbox]
          rfl
      | false =>
          obtain ⟨e, s₂, hset, hkeeps⟩ :=
            (hstore.fails hanswers).set c.key box ttl s₁ (hnonce.steady hsteady)
          have hfollows := hkeeps.toFollows
          rw [hdesk] at hfollows
          rw [hset]
          exact ⟨(hnonce.toFollows.trans hfollows).log _, nofun⟩

/-- What the store says when it is read. -/
structure Reads (t : TokenCache σ) (v : StoreView σ) (key : String) (s s' : Session σ)
    (answer : Except StorageError (Option String)) : Prop where
  keeps : t.Keeps v s s'
  text : v.answers = true → ∃ time, s.clock.uptime ≤ time ∧ time ≤ s'.clock.uptime ∧
    answer = .ok (v.texts s.world key time)
  failure : v.answers = false → ∃ e, answer = .error e

theorem exec_get (hstore : t.StoreLaw v) (key : String) (s : Session σ) (hsteady : v.steady s.world) :
    t.Reads v key s ((t.store.get key).exec s).2 ((t.store.get key).exec s).1 := by
  cases hanswers : v.answers with
  | true =>
      obtain ⟨time, s', hget, hkeeps, hfrom, hto⟩ := (hstore.answers hanswers).get key s hsteady
      rw [hget]
      exact ⟨hkeeps, fun _ => ⟨time, hfrom, hto, rfl⟩, by simp [hanswers]⟩
  | false =>
      obtain ⟨e, s', hget, hkeeps⟩ := (hstore.fails hanswers).get key s hsteady
      rw [hget]
      exact ⟨hkeeps, by simp [hanswers], fun _ => ⟨e, rfl⟩⟩

end TokenCache

/-! ### One step -/

/-- All that a step of a call can do: the stage before it, the stage after it and the session after
it. -/
inductive TokenMove (t : TokenCache σ) (v : StoreView σ)
    (c : TokenCall) (s : Session σ) : TokenStage → TokenStage → Session σ → Prop where
  | read (locked : Bool) {answer : Except StorageError (Option String)} {s' : Session σ}
      (h : t.Reads v c.key s s' answer) :
      TokenMove t v c s (.reading locked) (.judging locked answer) s'
  | hit (locked : Bool) {answer : Except StorageError (Option String)} {token : String}
      {s' : Session σ}
      (hfound : t.found? c.hash (t.desk.get s.world) s.clock.wall answer = some token)
      (h : t.Keeps v s s') :
      TokenMove t v c s (.judging locked answer)
        (if locked then .releasing (.ok token) else .done (.ok token)) s'
  | miss (locked : Bool) {answer : Except StorageError (Option String)} {s' : Session σ}
      (hfound : t.found? c.hash (t.desk.get s.world) s.clock.wall answer = none)
      (h : t.Keeps v s s') :
      TokenMove t v c s (.judging locked answer)
        (if locked then .issuing else .joining) s'
  | join {s' : Session σ}
      (h : t.Puts v { t.desk.get s.world with
        locks := (t.desk.get s.world).locks.join c.hash c.caller } s s') :
      TokenMove t v c s .joining .waiting s'
  | enter {s' : Session σ} (hhead : (t.desk.get s.world).locks.holder? c.hash = some c.caller)
      (h : t.Keeps v s s') : TokenMove t v c s .waiting (.reading true) s'
  | stay {s' : Session σ} (h : t.Keeps v s s') : TokenMove t v c s .waiting .waiting s'
  | ask {s' : Session σ} (reply : Except BrokerError (Option TokenReply)) (h : t.Keeps v s s') :
      TokenMove t v c s .issuing (.weighing s.clock.wall reply) s'
  | weigh (issuedAt : Instant) (reply : Except BrokerError (Option TokenReply)) {s' : Session σ}
      (h : t.Keeps v s s') :
      TokenMove t v c s (.weighing issuedAt reply)
        (TokenCache.weighed issuedAt s.clock.wall reply) s'
  | keep (token : String) (validUntil : Instant) (ttl : Nat) {s' : Session σ}
      (h : t.Puts v ((t.desk.get s.world).keep c.hash ⟨token, validUntil⟩) s s') :
      TokenMove t v c s (.keeping token validUntil ttl) (.writing token ttl) s'
  | write (token : String) (ttl : Nat) {s' : Session σ}
      (h : t.Follows v (t.desk.get s.world) s s')
      (hwritten : v.answers = true → token.isEmpty = false → t.Written v c.key token ttl s s') :
      TokenMove t v c s (.writing token ttl) (.releasing (.ok token)) s'
  | release (result : Except BrokerError String) {s' : Session σ}
      (h : t.Puts v { t.desk.get s.world with
        locks := (t.desk.get s.world).locks.release c.hash } s s') :
      TokenMove t v c s (.releasing result) (.done result) s'
  | stop (result : Except BrokerError String) :
      TokenMove t v c s (.done result) (.done result) s

theorem TokenMove.later {t : TokenCache σ} {v : StoreView σ} {c : TokenCall} {s s' : Session σ}
    {stage next : TokenStage} (h : TokenMove t v c s stage next s') : s.clock.Later s'.clock := by
  cases h with
  | read _ h => exact h.keeps.later
  | hit _ _ h | miss _ _ h | join h | enter _ h | stay h | ask _ h | weigh _ _ h | keep _ _ _ h
  | write _ _ h _ | release _ h => exact h.later
  | stop => exact .refl _

theorem TokenMove.steady {t : TokenCache σ} {v : StoreView σ} {c : TokenCall} {s s' : Session σ}
    {stage next : TokenStage} (h : TokenMove t v c s stage next s') (hs : v.steady s.world) :
    v.steady s'.world := by
  cases h with
  | read _ h => exact h.keeps.steady hs
  | hit _ _ h | miss _ _ h | join h | enter _ h | stay h | ask _ h | weigh _ _ h | keep _ _ _ h
  | write _ _ h _ | release _ h => exact h.steady hs
  | stop => exact hs

/-- Whether a call asks the store in a stage. -/
def TokenStage.asksStore : TokenStage → Bool
  | .reading _ | .writing .. => true
  | _ => false

/-- What a step does that does not ask the store. -/
theorem TokenCache.move_step_inside {t : TokenCache σ} {v : StoreView σ} (h : t.Separate v)
    (c : TokenCall) {stage : TokenStage} (s : Session σ) (hstage : stage.asksStore = false) :
    TokenMove t v c s stage (Act.exec (t.step c stage) s).1 (Act.exec (t.step c stage) s).2 := by
  cases stage with
  | reading locked => cases hstage
  | writing token ttl => cases hstage
  | judging locked answer =>
      obtain ⟨hfound, hkeeps⟩ := exec_judge h c answer s
      unfold step
      rw [Act.exec_bind]
      rcases hexec : Act.exec (t.judge c answer) s with ⟨found, s'⟩
      rw [hexec] at hfound hkeeps
      cases found with
      | none => cases locked with
        | true => exact .miss true hfound.symm hkeeps
        | false => exact .miss false hfound.symm hkeeps
      | some token => cases locked with
        | true =>
            exact .hit true hfound.symm (hkeeps.trans (keeps_emit .debug .tokens
              "Token refreshed by another caller" [("account", .text c.hash)] s'))
        | false => exact .hit false hfound.symm hkeeps
  | joining =>
      exact .join
        (h.puts_onPart (fun d => ((), { d with locks := d.locks.join c.hash c.caller })) s)
  | waiting =>
      have hkeeps := h.puts_onPart (fun d => (d.locks.holder? c.hash, d)) s
      unfold step
      rw [Act.exec_bind, Act.exec_onPart]
      dsimp only
      by_cases hhead : (t.desk.get s.world).locks.holder? c.hash = some c.caller
      · rw [if_pos hhead]
        exact .enter hhead hkeeps
      · rw [if_neg hhead]
        exact .stay hkeeps
  | issuing => exact .ask _ (h.issuer c.account s)
  | weighing issuedAt reply =>
      obtain ⟨hnext, hkeeps⟩ := exec_weigh (t := t) (v := v) c issuedAt reply s
      change TokenMove t v c s _ (Act.exec (weigh c issuedAt reply) s).1 _
      rw [hnext]
      exact .weigh issuedAt reply hkeeps
  | keeping token validUntil ttl =>
      exact .keep token validUntil ttl
        (h.puts_onPart (fun d => ((), d.keep c.hash ⟨token, validUntil⟩)) s)
  | releasing result =>
      exact .release result
        (h.puts_onPart (fun d => ((), { d with locks := d.locks.release c.hash })) s)
  | done result => exact .stop result

/-- **A step does nothing else.** -/
theorem TokenCache.move_step {t : TokenCache σ} {v : StoreView σ} (h : t.Separate v)
    (hstore : t.StoreLaw v) (c : TokenCall) (stage : TokenStage) (s : Session σ)
    (hsteady : v.steady s.world) :
    TokenMove t v c s stage (Act.exec (t.step c stage) s).1 (Act.exec (t.step c stage) s).2 := by
  cases stage with
  | reading locked => exact .read locked (exec_get hstore c.key s hsteady)
  | writing token ttl =>
      obtain ⟨hfollows, hwritten⟩ := exec_write h hstore c token ttl s hsteady
      exact .write token ttl hfollows hwritten
  | _ => exact move_step_inside h c s rfl

/-! ### Steps that take no time -/

namespace TokenCache

variable {t : TokenCache σ}

/-- Neither the store nor the issuer takes any time, nor does whoever makes nonces. -/
structure Prompt (t : TokenCache σ) : Prop where
  issuer : ∀ a s, ((t.issuer a).exec s).2.clock = s.clock
  get : ∀ key s, ((t.store.get key).exec s).2.clock = s.clock
  set : ∀ key text ttl s, ((t.store.set key text ttl).exec s).2.clock = s.clock
  nonce : ∀ s, (Act.exec t.freshNonce s).2.clock = s.clock

theorem clock_judge (t : TokenCache σ) (c : TokenCall)
    (answer : Except StorageError (Option String)) (s : Session σ) :
    (Act.exec (t.judge c answer) s).2.clock = s.clock := by
  unfold judge
  cases answer with
  | error e => rfl
  | ok text => cases text with
    | none => rfl
    | some box =>
        dsimp only
        cases t.tokenSeal.decrypt box <;> rfl

theorem Prompt.clock_write (h : t.Prompt) (c : TokenCall) (token : String) (ttl : Nat)
    (s : Session σ) : (Act.exec (t.write c token ttl) s).2.clock = s.clock := by
  unfold write
  rw [Act.exec_bind, ← h.nonce s]
  rcases Act.exec t.freshNonce s with ⟨nonce, s₁⟩
  dsimp only
  cases t.tokenSeal.encrypt nonce token with
  | error e => rfl
  | ok box =>
      dsimp only
      rw [Act.exec_bind, Act.exec_run, ← h.set c.key box ttl s₁]
      rcases (t.store.set c.key box ttl).exec s₁ with ⟨result, s₂⟩
      cases result <;> rfl

/-- No step of a call takes any time then. -/
theorem Prompt.clock_step (h : t.Prompt) (c : TokenCall) (stage : TokenStage) (s : Session σ) :
    (Act.exec (t.step c stage) s).2.clock = s.clock := by
  cases stage with
  | reading locked => exact h.get c.key s
  | judging locked answer =>
      unfold step
      rw [Act.exec_bind, ← clock_judge t c answer s]
      rcases Act.exec (t.judge c answer) s with ⟨found, s₁⟩
      cases found <;> cases locked <;> rfl
  | waiting =>
      unfold step
      rw [Act.exec_bind, Act.exec_onPart]
      dsimp only
      split <;> rfl
  | issuing => exact h.issuer c.account s
  | weighing issuedAt reply =>
      obtain ⟨log, hweighed⟩ := exec_weigh_session c issuedAt reply s
      change (Act.exec (weigh c issuedAt reply) s).2.clock = s.clock
      rw [hweighed]
  | writing token ttl => exact h.clock_write c token ttl s
  | joining | keeping | releasing | done => rfl

end TokenCache

end DailyBars
