import DailyBars.Proofs.Broker.TokenRuns

/-!
# Calls that wait for one token

What holds of calls for the token of one account at any time, when there was no token at the beginning.
Between the request to the issuer and the time at which everybody finds its token, one call carries
it, which holds the account's lock all the while; and a call that gets the lock looks once more, so
none asks again. While the store does not answer, the token in the process takes the place of the one
in the store.
-/

namespace DailyBars

variable {σ : Type}

/-- Calls for the token of an account, all on the same cache, and when they end. -/
structure Flight (σ : Type) where
  cache : TokenCache σ
  view : StoreView σ
  account : Account
  hash : String
  /-- The clock at the end. -/
  limit : Clock

namespace Flight

/-- The call of a caller. -/
def call (f : Flight σ) (i : Nat) : TokenCall := ⟨f.account, f.hash, i⟩

/-- What the store gives for the account at an uptime. -/
def text (f : Flight σ) (s : Session σ) (time : Nat) : Option String :=
  f.view.texts s.world ("kis:token:" ++ f.hash) time

/-- The desk of the process. -/
def desk (f : Flight σ) (s : Session σ) : TokenDesk := f.cache.desk.get s.world

/-- The callers at the account's lock. -/
def queue (f : Flight σ) (s : Session σ) : List Nat := (f.desk s).locks.queue f.hash

/-! ### The invariant -/

/-- The token that the issuer gave, the only time that it was asked. -/
def Issued (replies : List IssuerAnswer) (token : String) : Prop :=
  ∃ issuedAt reply, replies = [(issuedAt, .ok (some reply))] ∧ reply.token? = some token

/-- Whoever looks for a token finds one, until the end. -/
structure Served (f : Flight σ) (s : Session σ) : Prop where
  inStore : f.view.answers = true → ∀ time, s.clock.uptime ≤ time → time ≤ f.limit.uptime →
    ∃ token, f.cache.open? (f.text s time) = some token
  inProcess : f.view.answers = false → ∃ kept, (f.desk s).held.lookup f.hash = some kept ∧
    kept.validUntil.Regular ∧ f.limit.wall < kept.validUntil

/-- An answer of the store gives the issued token if it gives one, and it gives one if it was given
to the holder of the lock after the request. -/
structure AnswerSound (f : Flight σ) (replies : List IssuerAnswer) (locked : Bool)
    (answer : Except StorageError (Option String)) : Prop where
  text : f.view.answers = true → ∃ text, answer = .ok text ∧
    (∀ token, f.cache.open? text = some token → Issued replies token) ∧
    (locked → replies ≠ [] → ∃ token, f.cache.open? text = some token)
  failure : f.view.answers = false → ∃ e, answer = .error e

/-- What the stage of a call says. -/
def StageSound (f : Flight σ) (replies : List IssuerAnswer) (s : Session σ) : TokenStage → Prop
  | .reading _ | .joining | .waiting => True
  | .judging locked answer => f.AnswerSound replies locked answer
  | .issuing => replies = []
  | .weighing issuedAt reply => replies = [(issuedAt, reply)] ∧ issuedAt.Regular
  | .keeping token validUntil ttl => Issued replies token ∧ validUntil.Regular ∧
      f.limit.wall < validUntil ∧ f.limit.uptime < s.clock.uptime + ttl
  | .writing token ttl => Issued replies token ∧ f.limit.uptime < s.clock.uptime + ttl ∧
      (f.view.answers = false → f.Served s)
  | .releasing result | .done result => ∃ token, result = .ok token ∧ Issued replies token

/-- What holds of the calls at any time. -/
structure Sound (f : Flight σ) (w : TokenRun σ) : Prop where
  line : Line (f.queue w.session) w.stages
  regular : w.session.clock.wall.Regular
  once : w.replies.length ≤ 1
  stages : ∀ i, f.StageSound w.replies w.session (w.stages i)
  /-- Only the issued token is kept in the process, … -/
  held : ∀ kept, (f.desk w.session).held.lookup f.hash = some kept → Issued w.replies kept.token
  /-- … and only the issued token is in the store. -/
  stored : f.view.answers = true → ∀ time, w.session.clock.uptime ≤ time → time ≤ f.limit.uptime →
    ∀ token, f.cache.open? (f.text w.session time) = some token → Issued w.replies token
  /-- After the request some call still carries the token, or everybody finds it. -/
  served : w.replies ≠ [] → (∃ i, (w.stages i).carries) ∨ f.Served w.session

variable {f : Flight σ} {w : TokenRun σ} {s s' : Session σ} {i j : Nat} {stage : TokenStage}
  {replies : List IssuerAnswer} {token : String} {answer : Except StorageError (Option String)}
  {locked : Bool}

theorem Issued.ne_nil (h : Issued replies token) : replies ≠ [] := by
  obtain ⟨issuedAt, reply, rfl, -⟩ := h
  exact List.cons_ne_nil _ _

theorem Issued.unique {token' : String} (h : Issued replies token) (h' : Issued replies token') :
    token = token' := by
  obtain ⟨issuedAt, reply, rfl, htoken⟩ := h
  obtain ⟨issuedAt', reply', heq, htoken'⟩ := h'
  cases heq
  exact Option.some.inj (htoken.symm.trans htoken')

theorem Issued.not_empty (h : Issued replies token) : token.isEmpty = false := by
  obtain ⟨issuedAt, reply, rfl, htoken⟩ := h
  obtain ⟨-, hblank⟩ := Option.filter_eq_some_iff.mp htoken
  cases hempty : token.isEmpty with
  | false => rfl
  | true =>
      rw [String.isEmpty_iff] at hempty
      subst hempty
      cases hblank

/-- Nothing is changed between two sessions that the calls look for. -/
structure Undisturbed (f : Flight σ) (s s' : Session σ) : Prop where
  held : (f.desk s').held = (f.desk s).held
  text : f.text s' = f.text s
  later : s.clock.Later s'.clock

theorem undisturbed_of_puts {d : TokenDesk} (h : f.cache.Puts f.view d s s')
    (hheld : d.held = (f.desk s).held) : f.Undisturbed s s' := by
  refine ⟨?_, ?_, h.later⟩
  · rw [desk, h.desk, hheld]
  · unfold text
    rw [h.texts]

theorem Served.mono (h : f.Served s) (hs : f.Undisturbed s s') : f.Served s' := by
  refine ⟨fun hanswers time hfrom hto => ?_, fun hfails => ?_⟩
  · rw [hs.text]
    exact h.inStore hanswers time (Nat.le_trans hs.later.uptime_le hfrom) hto
  · rw [hs.held]
    exact h.inProcess hfails

theorem StageSound.mono (h : f.StageSound replies s stage) (hlater : s.clock.Later s'.clock)
    (hserved : f.Served s → f.Served s') : f.StageSound replies s' stage := by
  have hle := hlater.uptime_le
  cases stage with
  | keeping token validUntil ttl => exact ⟨h.1, h.2.1, h.2.2.1, Nat.lt_of_lt_of_le h.2.2.2 (by omega)⟩
  | writing token ttl =>
      exact ⟨h.1, Nat.lt_of_lt_of_le h.2.1 (by omega), fun hfails => hserved (h.2.2 hfails)⟩
  | _ => exact h

/-- Before the issuer was asked, the stages of calls without the lock say nothing of its answers. -/
theorem StageSound.of_nil (h : f.StageSound [] s stage) (hfree : stage.holds = false) :
    f.StageSound replies s' stage := by
  cases stage with
  | reading | joining | waiting => trivial
  | issuing | weighing | keeping | writing | releasing => cases hfree
  | done result =>
      obtain ⟨token, -, hissued⟩ := h
      exact absurd rfl hissued.ne_nil
  | judging locked answer =>
      have hlocked : locked = false := hfree
      refine ⟨fun hanswers => ?_, h.failure⟩
      obtain ⟨text, htext, hnone, -⟩ := h.text hanswers
      refine ⟨text, htext, fun token htoken => absurd rfl (hnone token htoken).ne_nil, ?_⟩
      rw [hlocked]
      nofun

theorem stageSound_update {stages : Nat → TokenStage} (hi : f.StageSound replies s stage)
    (hothers : ∀ j, j ≠ i → f.StageSound replies s (stages j)) (j : Nat) :
    f.StageSound replies s (Function.update stages i stage j) := by
  by_cases hji : j = i
  · subst hji
    rw [Function.update_self]
    exact hi
  · rw [Function.update_of_ne hji]
    exact hothers j hji

theorem exists_carries_update (stages : Nat → TokenStage) (i : Nat) (h : stage.carries) :
    ∃ j, (Function.update stages i stage j).carries :=
  ⟨i, by rwa [Function.update_self]⟩

/-- A step that disturbs nothing keeps the invariant, if the call is sound at its new stage. -/
theorem Sound.goOn (h : f.Sound w) (hs : f.Undisturbed w.session s')
    (hline : Line (f.queue s') (Function.update w.stages i stage))
    (hcarries : (w.stages i).carries → stage.carries)
    (hstage : f.StageSound w.replies s' stage) :
    f.Sound ⟨s', Function.update w.stages i stage, w.replies⟩ := by
  refine ⟨hline, hs.later.regular h.regular, h.once, stageSound_update hstage ?_, ?_, ?_, ?_⟩
  · exact fun j _ => (h.stages j).mono hs.later (·.mono hs)
  · intro kept hkept
    rw [hs.held] at hkept
    exact h.held kept hkept
  · intro hanswers time hfrom hto token htoken
    rw [hs.text] at htoken
    exact h.stored hanswers time (Nat.le_trans hs.later.uptime_le hfrom) hto token htoken
  · intro hasked
    rcases h.served hasked with ⟨j, hj⟩ | hserved
    · by_cases hji : j = i
      · subst hji
        exact .inl (exists_carries_update w.stages j (hcarries hj))
      · refine .inl ⟨j, ?_⟩
        dsimp only
        rwa [Function.update_of_ne hji]
    · exact .inr (hserved.mono hs)

/-! ### What a step keeps -/

theorem Sound.stageSound (h : f.Sound w) (hstage : w.stages i = stage) :
    f.StageSound w.replies w.session stage := hstage ▸ h.stages i

/-- The holder of the lock finds what others have left, unless it carries the token itself. -/
theorem Sound.served_of_holds (h : f.Sound w) (hholds : (w.stages i).holds)
    (hcarries : (w.stages i).carries = false) (hasked : w.replies ≠ []) : f.Served w.session := by
  rcases h.served hasked with ⟨j, hj⟩ | hserved
  · have hji := h.line.eq_of_holds (TokenStage.holds_of_carries hj) hholds
    rw [hji, hcarries] at hj
    cases hj
  · exact hserved

theorem queue_eq_of_puts {d : TokenDesk} (h : f.cache.Puts f.view d s s')
    (hlocks : d.locks = (f.desk s).locks) : f.queue s' = f.queue s := by
  rw [queue, desk, h.desk, hlocks]
  rfl

/-- A call that stays in line, or out of it, does not disturb the line. -/
theorem Sound.line_goOn (h : f.Sound w) (hqueue : f.queue s' = f.queue w.session)
    (hline : stage.inLine = (w.stages i).inLine) (hholds : stage.holds → (w.stages i).holds) :
    Line (f.queue s') (Function.update w.stages i stage) := by
  rw [hqueue]
  exact h.line.goOn hline fun hs => h.line.head i (hholds hs)

/-- A call that reads the store. -/
theorem Sound.read (h : f.Sound w) (hstage : w.stages i = .reading locked)
    (hreads : f.cache.Reads f.view (f.call i).key w.session s' answer)
    (hlimit : s'.clock.Later f.limit) :
    f.Sound ⟨s', Function.update w.stages i (.judging locked answer), w.replies⟩ := by
  have hkeeps := hreads.keeps
  refine h.goOn (undisturbed_of_puts hkeeps rfl) ?_ (by rw [hstage]; nofun) ⟨?_, ?_⟩
  · exact h.line_goOn (queue_eq_of_puts hkeeps rfl) (by rw [hstage]; rfl) (by rw [hstage]; exact id)
  · intro hanswers
    obtain ⟨time, hfrom, hto, rfl⟩ := hreads.text hanswers
    have htime : time ≤ f.limit.uptime := Nat.le_trans hto hlimit.uptime_le
    refine ⟨_, rfl, h.stored hanswers time hfrom htime, fun hlocked hasked => ?_⟩
    -- Whoever had the lock before has left a token in the store.
    have hserved := h.served_of_holds (i := i) (by rw [hstage]; exact hlocked) (by rw [hstage]; rfl)
      hasked
    exact hserved.inStore hanswers time hfrom htime
  · exact hreads.failure

/-- What a call finds is the issued token. -/
theorem Sound.issued_of_found (h : f.Sound w) (hanswer : f.AnswerSound w.replies locked answer)
    (hfound : f.cache.found? f.hash (f.desk w.session) w.session.clock.wall answer = some token) :
    Issued w.replies token := by
  cases hanswers : f.view.answers with
  | true =>
      obtain ⟨text, rfl, hissued, -⟩ := hanswer.text hanswers
      exact hissued token hfound
  | false =>
      obtain ⟨e, rfl⟩ := hanswer.failure hanswers
      obtain ⟨kept, hkept, rfl⟩ := Option.map_eq_some_iff.mp hfound
      exact h.held kept (Option.filter_eq_some_iff.mp hkept).1

/-- A holder of the lock that finds nothing is the first to ask. -/
theorem Sound.replies_of_miss (h : f.Sound w) (hstage : w.stages i = .judging true answer)
    (hlimit : w.session.clock.Later f.limit)
    (hfound : f.cache.found? f.hash (f.desk w.session) w.session.clock.wall answer = none) :
    w.replies = [] := by
  by_contra hasked
  have hserved := h.served_of_holds (i := i) (by rw [hstage]; rfl) (by rw [hstage]; rfl) hasked
  have hanswer : f.AnswerSound w.replies true answer := h.stageSound hstage
  cases hanswers : f.view.answers with
  | true =>
      -- The store was read with the lock, so after the token was written to it.
      obtain ⟨text, rfl, -, hgives⟩ := hanswer.text hanswers
      obtain ⟨token, htoken⟩ := hgives rfl hasked
      cases hfound.symm.trans htoken
  | false =>
      obtain ⟨e, rfl⟩ := hanswer.failure hanswers
      obtain ⟨kept, hkept, hregular, hbefore⟩ := hserved.inProcess hanswers
      -- The desk is asked now, and the token is not given up before the end.
      have hnow := hlimit.wall_lt h.regular hregular hbefore
      simp [TokenCache.found?, TokenDesk.servable?, hkept, Option.filter, hnow] at hfound

/-- A call that finds a token is at its end, but for the lock. -/
theorem Sound.hit (h : f.Sound w) (hstage : w.stages i = .judging locked answer)
    (hfound : f.cache.found? f.hash (f.desk w.session) w.session.clock.wall answer = some token)
    (hkeeps : f.cache.Keeps f.view w.session s') :
    f.Sound ⟨s', Function.update w.stages i
      (if locked then .releasing (.ok token) else .done (.ok token)), w.replies⟩ := by
  have hissued := h.issued_of_found (h.stageSound hstage) hfound
  refine h.goOn (undisturbed_of_puts hkeeps rfl) ?_ (by rw [hstage]; nofun) ?_
  · refine h.line_goOn (queue_eq_of_puts hkeeps rfl) ?_ ?_ <;> rw [hstage] <;> cases locked
    all_goals first | rfl | exact id
  · cases locked <;> exact ⟨token, rfl, hissued⟩

/-- A call that finds none gets in line, or asks the issuer if it has the lock. -/
theorem Sound.miss (h : f.Sound w) (hstage : w.stages i = .judging locked answer)
    (hlimit : w.session.clock.Later f.limit)
    (hfound : f.cache.found? f.hash (f.desk w.session) w.session.clock.wall answer = none)
    (hkeeps : f.cache.Keeps f.view w.session s') :
    f.Sound ⟨s', Function.update w.stages i (if locked then .issuing else .joining), w.replies⟩ := by
  refine h.goOn (undisturbed_of_puts hkeeps rfl) ?_ (by rw [hstage]; nofun) ?_
  · refine h.line_goOn (queue_eq_of_puts hkeeps rfl) ?_ ?_ <;> rw [hstage] <;> cases locked
    all_goals first | rfl | exact id
  · cases locked with
    | true => exact h.replies_of_miss hstage hlimit hfound
    | false => trivial

/-- A call gets in line. -/
theorem Sound.join (h : f.Sound w) (hstage : w.stages i = .joining)
    (hputs : f.cache.Puts f.view { f.desk w.session with
      locks := (f.desk w.session).locks.join f.hash i } w.session s') :
    f.Sound ⟨s', Function.update w.stages i .waiting, w.replies⟩ := by
  refine h.goOn (undisturbed_of_puts hputs rfl) ?_ (by rw [hstage]; nofun) trivial
  have hqueue : f.queue s' = f.queue w.session ++ [i] := by
    rw [queue, desk, hputs.desk]
    exact AccountLocks.queue_join _ _ _
  rw [hqueue]
  exact h.line.join (by rw [hstage]; rfl)

/-- A call in line gets the lock if it is the first. -/
theorem Sound.enter (h : f.Sound w) (hstage : w.stages i = .waiting)
    (hhead : (f.desk w.session).locks.holder? f.hash = some i)
    (hkeeps : f.cache.Keeps f.view w.session s') :
    f.Sound ⟨s', Function.update w.stages i (.reading true), w.replies⟩ := by
  refine h.goOn (undisturbed_of_puts hkeeps rfl) ?_ (by rw [hstage]; nofun) trivial
  rw [queue_eq_of_puts hkeeps rfl]
  exact h.line.goOn (by rw [hstage]; rfl) fun _ => hhead

/-- A call stays at its stage. -/
theorem Sound.stay (h : f.Sound w) (hkeeps : f.cache.Keeps f.view w.session s') :
    f.Sound ⟨s', w.stages, w.replies⟩ := by
  have hs := undisturbed_of_puts hkeeps rfl
  have hsame : f.Sound ⟨s', Function.update w.stages 0 (w.stages 0), w.replies⟩ := by
    refine h.goOn hs ?_ id ((h.stages 0).mono hs.later (·.mono hs))
    rw [queue_eq_of_puts hkeeps rfl, Function.update_eq_self]
    exact h.line
  rwa [Function.update_eq_self] at hsame

/-- The first request to the issuer. -/
theorem Sound.ask (h : f.Sound w) (hstage : w.stages i = .issuing)
    (reply : Except BrokerError (Option TokenReply)) (hkeeps : f.cache.Keeps f.view w.session s') :
    f.Sound ⟨s', Function.update w.stages i (.weighing w.session.clock.wall reply),
      (w.session.clock.wall, reply) :: w.replies⟩ := by
  have hs := undisturbed_of_puts hkeeps rfl
  have hnil : w.replies = [] := h.stageSound hstage
  have hholds : (w.stages i).holds := by
    rw [hstage]
    rfl
  refine ⟨?_, hs.later.regular h.regular, by simp [hnil], stageSound_update ?_ ?_, ?_, ?_,
    fun _ => .inl (exists_carries_update w.stages i rfl)⟩
  · exact h.line_goOn (queue_eq_of_puts hkeeps rfl) (by rw [hstage]; rfl) fun _ => hholds
  · rw [hnil]
    exact ⟨rfl, h.regular⟩
  · -- No other call holds the lock, so none has an issued token to speak of.
    intro j hji
    have hfree : (w.stages j).holds = false := by
      by_contra hj
      exact hji (h.line.eq_of_holds (by simpa using hj) hholds)
    have hsound := h.stages j
    rw [hnil] at hsound
    exact hsound.of_nil hfree
  · intro kept hkept
    rw [hs.held] at hkept
    exact absurd hnil (h.held kept hkept).ne_nil
  · intro hanswers time hfrom hto token htoken
    rw [hs.text] at htoken
    have hissued := h.stored hanswers time (Nat.le_trans hs.later.uptime_le hfrom) hto token htoken
    exact absurd hnil hissued.ne_nil

/-- The issuer gave a token that may still be served at an instant. -/
def GaveUntil (limit : Instant) (x : IssuerAnswer) : Prop :=
  ∃ reply token servedUntil, x.2 = .ok (some reply) ∧ reply.token? = some token ∧
    reply.servedUntil? x.1 = some servedUntil ∧ limit < servedUntil

/-- The token of the issuer is kept. -/
theorem Sound.weigh (h : f.Sound w) {issuedAt : Instant}
    {reply : Except BrokerError (Option TokenReply)} (hstage : w.stages i = .weighing issuedAt reply)
    (hlimit : w.session.clock.Later f.limit) (hgave : GaveUntil f.limit.wall (issuedAt, reply))
    (hkeeps : f.cache.Keeps f.view w.session s') :
    f.Sound ⟨s', Function.update w.stages i
      (TokenCache.weighed issuedAt w.session.clock.wall reply), w.replies⟩ := by
  obtain ⟨hreplies, hissuedAt⟩ := h.stageSound hstage
  obtain ⟨r, token, servedUntil, hr, htoken, huntil, hbefore⟩ := hgave
  dsimp only at hr huntil
  subst hr
  have hregular := TokenReply.regular_of_servedUntil? hissuedAt huntil
  have hpos := Clock.since_pos_of_wall_lt h.regular hregular hlimit hbefore
  have hweighed : TokenCache.weighed issuedAt w.session.clock.wall (.ok (some r)) =
      .keeping token servedUntil (servedUntil.since w.session.clock.wall).toNat := by
    simp [TokenCache.weighed, htoken, huntil, Option.filter, hpos]
  rw [hweighed]
  have hs := undisturbed_of_puts hkeeps rfl
  refine h.goOn hs ?_ (fun _ => rfl) ⟨⟨issuedAt, r, hreplies, htoken⟩, hregular, hbefore, ?_⟩
  · exact h.line_goOn (queue_eq_of_puts hkeeps rfl) (by rw [hstage]; rfl) (by rw [hstage]; exact id)
  · -- The time to live is measured on the wall clock but counted by the store on the other one.
    have hlease := Clock.uptime_lt_of_wall_lt h.regular hregular hlimit hbefore
    have hle := hs.later.uptime_le
    omega

/-- The issued token is kept in the process. -/
theorem Sound.keep (h : f.Sound w) {validUntil : Instant} {ttl : Nat}
    (hstage : w.stages i = .keeping token validUntil ttl)
    (hputs : f.cache.Puts f.view ((f.desk w.session).keep f.hash ⟨token, validUntil⟩) w.session s') :
    f.Sound ⟨s', Function.update w.stages i (.writing token ttl), w.replies⟩ := by
  obtain ⟨hissued, hregular, hbefore, hlease⟩ := h.stageSound hstage
  have hholds : (w.stages i).holds := by
    rw [hstage]
    rfl
  have hlookup : (f.desk s').held.lookup f.hash = some ⟨token, validUntil⟩ := by
    rw [desk, hputs.desk]
    exact List.lookup_cons_self
  have htext : f.text s' = f.text w.session := by
    unfold text
    rw [hputs.texts]
  -- Only while the store fails is the token in the process enough for the others.
  have hserved : f.view.answers = false → f.Served s' := fun hfails =>
    ⟨fun hanswers => (Bool.false_ne_true (hfails.symm.trans hanswers)).elim,
      fun _ => ⟨_, hlookup, hregular, hbefore⟩⟩
  have hkeep : f.Served w.session → f.Served s' := by
    intro hserved
    refine ⟨fun hanswers time hfrom hto => ?_, fun _ => ⟨_, hlookup, hregular, hbefore⟩⟩
    rw [htext]
    exact hserved.inStore hanswers time (Nat.le_trans hputs.later.uptime_le hfrom) hto
  refine ⟨?_, hputs.later.regular h.regular, h.once, stageSound_update ?_ ?_,
    ?_, ?_, fun _ => .inl (exists_carries_update w.stages i rfl)⟩
  · exact h.line_goOn (queue_eq_of_puts hputs rfl) (by rw [hstage]; rfl) fun _ => hholds
  · have hle := hputs.later.uptime_le
    exact ⟨hissued, Nat.lt_of_lt_of_le hlease (Nat.add_le_add_right hle ttl), hserved⟩
  · exact fun j _ => (h.stages j).mono hputs.later hkeep
  · intro kept hkept
    cases hlookup.symm.trans hkept
    exact hissued
  · intro hanswers time hfrom hto token' htoken
    rw [htext] at htoken
    exact h.stored hanswers time (Nat.le_trans hputs.later.uptime_le hfrom) hto token' htoken

/-- The issued token is written to the store, if this answers. -/
theorem Sound.write (h : f.Sound w) {ttl : Nat} (hstage : w.stages i = .writing token ttl)
    (hfollows : f.cache.Follows f.view (f.desk w.session) w.session s')
    (hwritten : f.view.answers = true → token.isEmpty = false →
      f.cache.Written f.view (f.call i).key token ttl w.session s') :
    f.Sound ⟨s', Function.update w.stages i (.releasing (.ok token)), w.replies⟩ := by
  obtain ⟨hissued, hlease, hprocess⟩ := h.stageSound hstage
  have hdesk : f.desk s' = f.desk w.session := hfollows.desk
  have hholds : (w.stages i).holds := by
    rw [hstage]
    rfl
  -- The time to live is over only after the end, whenever it began.
  have hgives : f.view.answers = true → ∀ time, s'.clock.uptime ≤ time → time ≤ f.limit.uptime →
      f.cache.open? (f.text s' time) = some token := fun hanswers time hfrom hto =>
    hwritten hanswers hissued.not_empty time hfrom (Nat.lt_of_le_of_lt hto hlease)
  have hserved : f.Served s' := by
    refine ⟨fun hanswers time hfrom hto => ⟨token, hgives hanswers time hfrom hto⟩, fun hfails => ?_⟩
    rw [hdesk]
    exact (hprocess hfails).inProcess hfails
  refine ⟨?_, hfollows.later.regular h.regular, h.once,
    stageSound_update ⟨token, rfl, hissued⟩ ?_, ?_, ?_, fun _ => .inr hserved⟩
  · exact h.line_goOn (by rw [queue, hdesk, queue]) (by rw [hstage]; rfl) fun _ => hholds
  · exact fun j _ => (h.stages j).mono hfollows.later fun _ => hserved
  · intro kept hkept
    rw [hdesk] at hkept
    exact h.held kept hkept
  · intro hanswers time hfrom hto token' htoken
    cases (hgives hanswers time hfrom hto).symm.trans htoken
    exact hissued

/-- The lock passes on. -/
theorem Sound.release (h : f.Sound w) {result : Except BrokerError String}
    (hstage : w.stages i = .releasing result)
    (hputs : f.cache.Puts f.view { f.desk w.session with
      locks := (f.desk w.session).locks.release f.hash } w.session s') :
    f.Sound ⟨s', Function.update w.stages i (.done result), w.replies⟩ := by
  refine h.goOn (undisturbed_of_puts hputs rfl) ?_ (by rw [hstage]; nofun) (h.stageSound hstage)
  have hqueue : f.queue s' = (f.queue w.session).tail := by
    rw [queue, desk, hputs.desk]
    exact AccountLocks.queue_release _ _
  rw [hqueue]
  exact h.line.leave (by rw [hstage]; rfl) rfl

/-- A step of a call keeps the invariant. -/
theorem Sound.move (h : f.Sound w) (hmove : TokenMove f.cache f.view (f.call i) w.session
      (w.stages i) stage s') (hlimit : s'.clock.Later f.limit)
    (hgave : ∀ x ∈ w.replies, GaveUntil f.limit.wall x) : f.Sound (w.goOn i stage s') := by
  unfold TokenRun.goOn
  generalize hstage : w.stages i = before at hmove
  cases hmove with
  | read locked hreads => exact h.read hstage hreads hlimit
  | hit locked hfound hkeeps => exact h.hit hstage hfound hkeeps
  | miss locked hfound hkeeps => exact h.miss hstage (hkeeps.later.trans hlimit) hfound hkeeps
  | join hputs => exact h.join hstage hputs
  | enter hhead hkeeps => exact h.enter hstage hhead hkeeps
  | stay hkeeps =>
      rw [← hstage, Function.update_eq_self, hstage]
      exact h.stay hkeeps
  | ask reply hkeeps => exact h.ask hstage reply hkeeps
  | weigh issuedAt reply hkeeps =>
      have hmem : (issuedAt, reply) ∈ w.replies := by
        rw [(h.stageSound hstage).1]
        exact List.mem_singleton_self _
      exact h.weigh hstage (hkeeps.later.trans hlimit) (hgave _ hmem) hkeeps
  | keep token validUntil ttl hputs => exact h.keep hstage hputs
  | write token ttl hfollows hwritten => exact h.write hstage hfollows hwritten
  | release result hputs => exact h.release hstage hputs
  | stop result =>
      rw [← hstage, Function.update_eq_self, hstage]
      exact h.stay (.refl _)

/-- What time does to the calls. -/
theorem Sound.pass (h : f.Sound w) (nanos : Nat) : f.Sound (w.pass nanos) :=
  h.stay ⟨⟨rfl, Clock.later_advance _ nanos, id⟩, rfl⟩

end Flight

end DailyBars
