import DailyBars.Proofs.Broker.TokenRuns

/-!
# Calls for tokens in many processes

Any number of calls, each in one of any number of processes that share a store. A process has its own
desk, its own connections to the store and the issuer, and nothing else to do with the others. In a
step one call does what its stage asks for, or something else happens that leaves the desks and the
store alone. What the calls do is written down, deed by deed.

The store may fail whenever it likes, and what it was told to keep before it failed it may keep or
not. `Lawful.move` says what a deed can be.
-/

namespace DailyBars

variable {σ : Type}

/-- Processes that share a store of tokens, and the calls that are made in them. -/
structure TokenTeam (σ : Type) where
  config : BrokerConfig
  tokenSeal : TokenSeal
  hasher : AccountHasher
  issuer : Nat → TokenIssuer σ
  store : Nat → ExpiringStore σ
  desk : Nat → Part σ TokenDesk
  freshNonce : Nat → Act σ Nonce
  /-- The process in which a call is made. -/
  process : Nat → Nat
  /-- Whose token a call wants. -/
  reference : Nat → TokenReference

/-- What a call did in one step. -/
structure TokenDeed (σ : Type) where
  call : Nat
  stage : TokenStage
  before : Session σ
  next : TokenStage
  after : Session σ

/-- Calls at their stages, and all that they did, the last first. -/
structure TokenTraffic (σ : Type) where
  session : Session σ
  stages : Nat → TokenStage
  deeds : List (TokenDeed σ)

namespace TokenTeam

variable (g : TokenTeam σ) (texts : σ → String → Nat → Option String)

/-- The cache of a process. -/
def cache (p : Nat) : TokenCache σ where
  config := g.config
  issuer := g.issuer p
  store := g.store p
  tokenSeal := g.tokenSeal
  hasher := g.hasher
  desk := g.desk p
  freshNonce := g.freshNonce p

/-- The call of a number, if its reference means an account. -/
def call? (i : Nat) : Except BrokerError TokenCall :=
  (g.cache (g.process i)).callTo i (g.reference i)

/-- The desk of a process in a session. -/
def deskIn (p : Nat) (s : Session σ) : TokenDesk := (g.desk p).get s.world

/-- Calls that have done nothing yet. One whose reference means no account has failed. -/
def start (s : Session σ) : TokenTraffic σ where
  session := s
  stages i :=
    match g.call? i with
    | .ok _ => .reading false
    | .error e => .done (.error e)
  deeds := []

/-- A call does what its stage asks for. -/
def act (w : TokenTraffic σ) (i : Nat) (c : TokenCall) : TokenTraffic σ :=
  let r := Act.exec ((g.cache (g.process i)).step c (w.stages i)) w.session
  ⟨r.2, Function.update w.stages i r.1, ⟨i, w.stages i, w.session, r.1, r.2⟩ :: w.deeds⟩

/-- Time passes, at most, as far as the desks and the texts in the store are concerned. -/
structure Untouched (s s' : Session σ) : Prop where
  desks : ∀ p, g.deskIn p s' = g.deskIn p s
  texts : texts s'.world = texts s.world
  later : s.clock.Later s'.clock

/-- What processes that share a store are like. A text that the store gives for a key at an uptime is
one of `texts`. -/
structure Lawful : Prop where
  desk_lawful : ∀ p, (g.desk p).Lawful
  desk_apart : ∀ p q d w, q ≠ p → (g.desk q).get ((g.desk p).set d w) = (g.desk q).get w
  texts_desk : ∀ p d w, texts ((g.desk p).set d w) = texts w
  issuer : ∀ p a s, g.Untouched texts s ((g.issuer p a).exec s).2
  nonce : ∀ p s, g.Untouched texts s (Act.exec (g.freshNonce p) s).2
  get : ∀ p key s, g.Untouched texts s (((g.store p).get key).exec s).2
  gives : ∀ p key s text s', ((g.store p).get key).exec s = (.ok text, s') →
    ∃ time, s.clock.uptime ≤ time ∧ time ≤ s'.clock.uptime ∧ text = texts s.world key time
  set_desks : ∀ p key text ttl s q,
    g.deskIn q (((g.store p).set key text ttl).exec s).2 = g.deskIn q s
  set_later : ∀ p key text ttl (s : Session σ),
    s.clock.Later (((g.store p).set key text ttl).exec s).2.clock
  /-- Writing adds no other text than the one that is written, whether it fails or not. -/
  set_texts : ∀ p key text ttl s key' time text',
    texts (((g.store p).set key text ttl).exec s).2.world key' time = some text' →
      texts s.world key' time = some text' ∨ key' = key ∧ text' = text

/-- A store that gives a text no longer than for the time for which it was told to keep it. -/
def HonoursTime : Prop :=
  ∀ p key text ttl s key' time text',
    texts (((g.store p).set key text ttl).exec s).2.world key' time = some text' →
      texts s.world key' time = some text' ∨ key' = key ∧ text' = text ∧
        time < (((g.store p).set key text ttl).exec s).2.clock.uptime + ttl

end TokenTeam

/-- One step of the calls. -/
inductive TeamStep (g : TokenTeam σ) (texts : σ → String → Nat → Option String)
    (w : TokenTraffic σ) : TokenTraffic σ → Prop
  | act (i : Nat) {c : TokenCall} (hc : g.call? i = .ok c) : TeamStep g texts w (g.act w i c)
  | other {s' : Session σ} (h : g.Untouched texts w.session s') :
      TeamStep g texts w { w with session := s' }

/-- Calls at stages that others come to from theirs. -/
abbrev TokenTeam.Leads (g : TokenTeam σ) (texts : σ → String → Nat → Option String) :
    TokenTraffic σ → TokenTraffic σ → Prop :=
  Relation.ReflTransGen (TeamStep g texts)

/-- Stages of a call that has done nothing yet, or that is at its end. -/
def TokenStage.idle : TokenStage → Bool
  | .reading false | .done _ => true
  | _ => false

/-- One step of the calls, where the clock stands still within a call. -/
inductive StillStep (g : TokenTeam σ) (texts : σ → String → Nat → Option String)
    (w : TokenTraffic σ) : TokenTraffic σ → Prop
  | act (i : Nat) {c : TokenCall} (hc : g.call? i = .ok c)
      (hclock : (g.act w i c).session.clock = w.session.clock) : StillStep g texts w (g.act w i c)
  | other {s' : Session σ} (h : g.Untouched texts w.session s')
      (hclock : s'.clock = w.session.clock ∨ ∀ i, (w.stages i).idle) :
      StillStep g texts w { w with session := s' }

/-- Calls at stages that others come to from theirs, while the clock stands still within a call. -/
abbrev TokenTeam.LeadsStill (g : TokenTeam σ) (texts : σ → String → Nat → Option String) :
    TokenTraffic σ → TokenTraffic σ → Prop :=
  Relation.ReflTransGen (StillStep g texts)

namespace TokenTeam

variable {g : TokenTeam σ} {texts : σ → String → Nat → Option String} {s s' s'' : Session σ}
  {p q i : Nat} {c : TokenCall} {w w' : TokenTraffic σ} {answers : Bool} {d : TokenDesk}

/-! ### Calls -/

/-- A call is for an account of the configuration, under the hash of its number. -/
theorem of_call? (h : g.call? i = .ok c) :
    c.account ∈ g.config.accounts ∧ g.hasher.hash c.account.number = .ok c.hash ∧ c.caller = i := by
  have hof : ∀ a ∈ g.config.accounts, (g.cache (g.process i)).callOf a i = .ok c →
      c.account ∈ g.config.accounts ∧ g.hasher.hash c.account.number = .ok c.hash ∧
        c.caller = i := by
    intro a ha hcall
    unfold TokenCache.callOf at hcall
    cases hhash : (g.cache (g.process i)).hasher.hash a.number with
    | error e =>
        rw [hhash] at hcall
        cases hcall
    | ok hash =>
        rw [hhash] at hcall
        cases hcall
        exact ⟨ha, hhash, rfl⟩
  have hfound : ∀ reference a, g.config.findAccount? reference = some a → a ∈ g.config.accounts :=
    fun reference a ha => List.mem_of_find?_eq_some ha
  have hdefault : ∀ a, g.config.defaultAccount? = some a → a ∈ g.config.accounts := by
    intro a ha
    unfold BrokerConfig.defaultAccount? at ha
    split at ha
    · exact hfound _ a ha
    · exact List.mem_of_head? ha
  unfold call? at h
  cases href : g.reference i with
  | named reference =>
      rw [href] at h
      change (g.cache (g.process i)).callFor reference i = .ok c at h
      unfold TokenCache.callFor at h
      split at h
      · rename_i a ha
        exact hof a (hfound reference a ha) h
      · cases h
  | forPrices =>
      rw [href] at h
      change (g.cache (g.process i)).callForDefault i = .ok c at h
      unfold TokenCache.callForDefault at h
      split at h
      · rename_i a ha
        exact hof a (hdefault a ha) h
      · cases h

/-! ### What leaves the desks and the store alone -/

theorem Untouched.refl (s : Session σ) : g.Untouched texts s s := ⟨fun _ => rfl, rfl, .refl _⟩

theorem Untouched.trans (h : g.Untouched texts s s') (h' : g.Untouched texts s' s'') :
    g.Untouched texts s s'' :=
  ⟨fun p => (h'.desks p).trans (h.desks p), h'.texts.trans h.texts, h.later.trans h'.later⟩

/-- What the cache of a process sees of the store, as long as the other desks stay as they are. -/
def view (g : TokenTeam σ) (texts : σ → String → Nat → Option String) (p : Nat) (s : Session σ)
    (answers : Bool) : StoreView σ where
  texts := texts
  answers := answers
  steady w := ∀ q, q ≠ p → (g.desk q).get w = g.deskIn q s

theorem Untouched.keeps {s₀ : Session σ} (h : g.Untouched texts s s') :
    (g.cache p).Keeps (g.view texts p s₀ answers) s s' :=
  ⟨⟨h.desks p, h.later, fun hs q hq => (h.desks q).trans (hs q hq)⟩, h.texts⟩

theorem others_of_follows (h : (g.cache p).Follows (g.view texts p s answers) d s s') (hq : q ≠ p) :
    g.deskIn q s' = g.deskIn q s :=
  h.steady (fun _ _ => rfl) q hq

theorem untouched_of_keeps (h : (g.cache p).Keeps (g.view texts p s answers) s s') :
    g.Untouched texts s s' := by
  refine ⟨fun q => ?_, h.texts, h.later⟩
  by_cases hq : q = p
  · subst hq
    exact h.desk
  · exact others_of_follows h.toFollows hq

theorem Lawful.separate (h : g.Lawful texts) (p : Nat) (s : Session σ) (answers : Bool) :
    (g.cache p).Separate (g.view texts p s answers) where
  desk_lawful := h.desk_lawful p
  texts_desk := h.texts_desk p
  steady_desk d w hw q hq := (h.desk_apart p q d w hq).trans (hw q hq)
  issuer a s' := (h.issuer p a s').keeps
  nonce s' := (h.nonce p s').keeps

/-! ### What a call does in one step -/

/-- What writing a token does: it may come to nothing, or the store is told to keep the sealed token
under the key of the call. -/
inductive Writes (g : TokenTeam σ) (texts : σ → String → Nat → Option String) (p : Nat)
    (c : TokenCall) (token : String) (ttl : Nat) (s s' : Session σ) : Prop
  | nothing (h : g.Untouched texts s s')
  | set {nonce : Nonce} {box : String} {made : Session σ}
      (hbox : g.tokenSeal.encrypt nonce token = .ok box) (hmade : g.Untouched texts s made)
      (hworld : s'.world = (((g.store p).set c.key box ttl).exec made).2.world)
      (hclock : s'.clock = (((g.store p).set c.key box ttl).exec made).2.clock)

theorem Lawful.writes (h : g.Lawful texts) (p : Nat) (c : TokenCall) (token : String) (ttl : Nat)
    (s : Session σ) :
    g.Writes texts p c token ttl s (Act.exec ((g.cache p).write c token ttl) s).2 := by
  unfold TokenCache.write
  rw [Act.exec_bind]
  have hnonce : g.Untouched texts s (Act.exec (g.cache p).freshNonce s).2 := h.nonce p s
  rcases hexec : Act.exec (g.cache p).freshNonce s with ⟨nonce, made⟩
  rw [hexec] at hnonce
  dsimp only
  cases hbox : (g.cache p).tokenSeal.encrypt nonce token with
  | error e => exact .nothing ⟨hnonce.desks, hnonce.texts, hnonce.later⟩
  | ok box =>
      dsimp only
      rw [Act.exec_bind, Act.exec_run]
      -- What is logged afterwards makes no difference.
      cases hset : (((g.cache p).store.set c.key box ttl).exec made).1 with
      | ok _ => exact .set hbox hnonce rfl rfl
      | error e => exact .set hbox hnonce rfl rfl

theorem Writes.later (h : g.Lawful texts) {token : String} {ttl : Nat}
    (hwrites : g.Writes texts p c token ttl s s') : s.clock.Later s'.clock := by
  cases hwrites with
  | nothing h => exact h.later
  | set _ hmade _ hclock =>
      rw [hclock]
      exact hmade.later.trans (h.set_later ..)

theorem Writes.desks (h : g.Lawful texts) {token : String} {ttl : Nat}
    (hwrites : g.Writes texts p c token ttl s s') (q : Nat) : g.deskIn q s' = g.deskIn q s := by
  cases hwrites with
  | nothing h => exact h.desks q
  | @set _ box made _ hmade hworld _ =>
      have hset := h.set_desks p c.key box ttl made q
      unfold deskIn at hset ⊢
      rw [hworld, hset]
      exact hmade.desks q

/-- A text that is there after a write was there before, or is the sealed token under the key of the
call. -/
theorem Writes.text_cases (h : g.Lawful texts) {token : String} {ttl : Nat}
    (hwrites : g.Writes texts p c token ttl s s') {key text : String} {time : Nat}
    (htext : texts s'.world key time = some text) :
    texts s.world key time = some text ∨ key = c.key ∧ g.tokenSeal.decrypt text = .ok token := by
  cases hwrites with
  | nothing h =>
      rw [h.texts] at htext
      exact .inl htext
  | set hbox hmade hworld _ =>
      rw [hworld] at htext
      obtain hbefore | ⟨hkey, rfl⟩ := h.set_texts _ _ _ _ _ _ _ _ htext
      · rw [hmade.texts] at hbefore
        exact .inl hbefore
      · exact .inr ⟨hkey, TokenSeal.decrypt_of_encrypt hbox⟩

@[simp] theorem stages_act_self (w : TokenTraffic σ) (i : Nat) (c : TokenCall) :
    (g.act w i c).stages i =
      (Act.exec ((g.cache (g.process i)).step c (w.stages i)) w.session).1 :=
  Function.update_self ..

theorem stages_act_of_ne {j : Nat} (h : j ≠ i) (w : TokenTraffic σ) (c : TokenCall) :
    (g.act w i c).stages j = w.stages j :=
  Function.update_of_ne h ..

theorem deeds_subset_act (w : TokenTraffic σ) (i : Nat) (c : TokenCall) :
    w.deeds ⊆ (g.act w i c).deeds :=
  List.subset_cons_self ..

/-- **What a call does in one step**: one of the moves of a call, and a write only where it writes. -/
theorem Lawful.move (h : g.Lawful texts) (p : Nat) (c : TokenCall) (stage : TokenStage)
    (s : Session σ) :
    let r := Act.exec ((g.cache p).step c stage) s
    (∃ answers, TokenMove (g.cache p) (g.view texts p s answers) c s stage r.1 r.2) ∧
      ∀ token ttl, stage = .writing token ttl → g.Writes texts p c token ttl s r.2 := by
  intro r
  cases stage with
  | reading locked =>
      refine ⟨?_, nofun⟩
      have hkeeps := h.get p c.key s
      cases hget : ((g.store p).get c.key).exec s with
      | mk result s' =>
          have hr : r = (.judging locked result, s') := by
            change (TokenStage.judging locked (((g.store p).get c.key).exec s).1,
              (((g.store p).get c.key).exec s).2) = _
            rw [hget]
          rw [hget] at hkeeps
          rw [hr]
          cases result with
          | ok text =>
              obtain ⟨time, hfrom, hto, rfl⟩ := h.gives p c.key s text s' hget
              exact ⟨true, .read locked ⟨hkeeps.keeps, fun _ => ⟨time, hfrom, hto, rfl⟩, nofun⟩⟩
          | error e => exact ⟨false, .read locked ⟨hkeeps.keeps, nofun, fun _ => ⟨e, rfl⟩⟩⟩
  | writing token ttl =>
      have hwrites := h.writes p c token ttl s
      refine ⟨⟨false, .write token ttl ?_ nofun⟩, ?_⟩
      · exact ⟨hwrites.desks h p, hwrites.later h,
          fun hs q hq => (hwrites.desks h q).trans (hs q hq)⟩
      · rintro _ _ ⟨⟩
        exact hwrites
  | _ => exact ⟨⟨true, TokenCache.move_step_inside (h.separate p s true) c s rfl⟩, nofun⟩

/-! ### Calls without company -/

/-- A call that has no company is one of the runs in which its steps are possible. -/
theorem exists_finish {R : TokenTraffic σ → TokenTraffic σ → Prop} (ready : TokenTraffic σ → Prop)
    (hact : ∀ w, ready w → R w (g.act w i c) ∧ ready (g.act w i c)) (limit : Nat)
    (hready : ready w) : ∃ w', Relation.ReflTransGen R w w' ∧ (w'.stages i, w'.session) =
      Act.exec ((g.cache (g.process i)).finish c limit (w.stages i)) w.session := by
  induction limit generalizing w with
  | zero =>
      refine ⟨w, .refl, ?_⟩
      cases w.stages i <;> rfl
  | succ limit ih =>
      by_cases hdone : ∃ result, w.stages i = .done result
      · obtain ⟨result, hresult⟩ := hdone
        exact ⟨w, .refl, by rw [hresult]; rfl⟩
      · obtain ⟨hstep, hnext⟩ := hact w hready
        obtain ⟨w', hleads, hend⟩ := ih hnext
        refine ⟨w', .head hstep hleads, ?_⟩
        rw [TokenCache.finish_succ _ c limit fun result hresult => hdone ⟨result, hresult⟩,
          Act.exec_bind, ← stages_act_self]
        exact hend

theorem leads_finish (texts : σ → String → Nat → Option String) (hc : g.call? i = .ok c)
    (limit : Nat) (w : TokenTraffic σ) : ∃ w', g.Leads texts w w' ∧ (w'.stages i, w'.session) =
      Act.exec ((g.cache (g.process i)).finish c limit (w.stages i)) w.session :=
  exists_finish (fun _ => True) (fun _ _ => ⟨.act i hc, trivial⟩) limit trivial

theorem step_of_still (hstep : StillStep g texts w w') : TeamStep g texts w w' := by
  cases hstep with
  | act i hc => exact .act i hc
  | other hother => exact .other hother

theorem leads_of_still (hleads : g.LeadsStill texts w w') : g.Leads texts w w' :=
  Relation.ReflTransGen.mono (fun _ _ => step_of_still) _ _ hleads

end TokenTeam

end DailyBars
