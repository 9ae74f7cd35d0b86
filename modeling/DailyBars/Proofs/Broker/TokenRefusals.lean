import DailyBars.Proofs.Broker.TokenEnds
import DailyBars.Proofs.Broker.TokenTeam

/-!
# Only the issuer makes a call fail

A store that does not answer, a text that cannot be opened and a token that cannot be sealed cost time,
and not the token. Whatever the store does, and whatever happens between the steps of a call, a call
for an account has failed only if the issuer refused it a token (`TokenTeam.refused_of_leads`). Each
step takes a call closer to its end, but for waiting in line; so a call that finds nobody in line comes
to its end (`TokenCache.exec_answer`).
-/

namespace DailyBars

variable {σ : Type}

/-! ### Which stage comes next -/

/-- The failure of a call that the issuer answers so, if it is none with a token. -/
def TokenReply.refusal? : Except BrokerError (Option TokenReply) → Option BrokerError
  | .error e => some e
  | .ok none => some (.unauthorized "토큰 발급 응답이 비어 있습니다")
  | .ok (some r) =>
    if r.token?.isNone then some (.unauthorized "토큰 발급 응답에 access_token이 없습니다") else none

open TokenReply (refusal?)

/-- Which stage of a call comes after which, whatever the store does. -/
inductive StageStep (t : TokenCache σ) (c : TokenCall) (s : Session σ) :
    TokenStage → TokenStage → Prop where
  | read (locked : Bool) (answer : Except StorageError (Option String)) :
      StageStep t c s (.reading locked) (.judging locked answer)
  | hit (locked : Bool) (answer : Except StorageError (Option String)) (token : String) :
      StageStep t c s (.judging locked answer)
        (if locked then .releasing (.ok token) else .done (.ok token))
  | miss (locked : Bool) (answer : Except StorageError (Option String)) :
      StageStep t c s (.judging locked answer) (if locked then .issuing else .joining)
  | join : StageStep t c s .joining .waiting
  | enter (hhead : (t.desk.get s.world).locks.holder? c.hash = some c.caller) :
      StageStep t c s .waiting (.reading true)
  | stay (hhead : (t.desk.get s.world).locks.holder? c.hash ≠ some c.caller) :
      StageStep t c s .waiting .waiting
  | ask : StageStep t c s .issuing (.weighing s.clock.wall ((t.issuer c.account).exec s).1)
  | refuse (issuedAt : Instant) {reply : Except BrokerError (Option TokenReply)} {e : BrokerError}
      (h : refusal? reply = some e) :
      StageStep t c s (.weighing issuedAt reply) (.releasing (.error e))
  | hand (issuedAt : Instant) (reply : Except BrokerError (Option TokenReply)) (token : String) :
      StageStep t c s (.weighing issuedAt reply) (.releasing (.ok token))
  | take (issuedAt : Instant) (reply : Except BrokerError (Option TokenReply)) (token : String)
      (validUntil : Instant) (ttl : Nat) :
      StageStep t c s (.weighing issuedAt reply) (.keeping token validUntil ttl)
  | keep (token : String) (validUntil : Instant) (ttl : Nat) :
      StageStep t c s (.keeping token validUntil ttl) (.writing token ttl)
  | write (token : String) (ttl : Nat) :
      StageStep t c s (.writing token ttl) (.releasing (.ok token))
  | release (result : Except BrokerError String) :
      StageStep t c s (.releasing result) (.done result)
  | stop (result : Except BrokerError String) : StageStep t c s (.done result) (.done result)

theorem stageStep_weighed (t : TokenCache σ) (c : TokenCall) (s : Session σ) (issuedAt now : Instant)
    (reply : Except BrokerError (Option TokenReply)) :
    StageStep t c s (.weighing issuedAt reply) (TokenCache.weighed issuedAt now reply) := by
  unfold TokenCache.weighed
  split
  · exact .refuse issuedAt rfl
  · exact .refuse issuedAt rfl
  · rename_i r
    cases htoken : r.token? with
    | none => exact .refuse issuedAt (by simp [refusal?, htoken])
    | some token =>
        dsimp only
        split
        · exact .take issuedAt _ token _ _
        · exact .hand issuedAt _ token

/-- **A step leads to no other stage.** -/
theorem stageStep (t : TokenCache σ) (c : TokenCall) (stage : TokenStage) (s : Session σ) :
    StageStep t c s stage (Act.exec (t.step c stage) s).1 := by
  cases stage with
  | reading locked => exact .read locked _
  | judging locked answer =>
      unfold TokenCache.step
      rw [Act.exec_bind]
      rcases Act.exec (t.judge c answer) s with ⟨found, s'⟩
      cases found with
      | none => cases locked with
        | true => exact .miss true answer
        | false => exact .miss false answer
      | some token => cases locked with
        | true => exact .hit true answer token
        | false => exact .hit false answer token
  | joining => exact .join
  | waiting =>
      unfold TokenCache.step
      rw [Act.exec_bind, Act.exec_onPart]
      dsimp only
      by_cases hhead : (t.desk.get s.world).locks.holder? c.hash = some c.caller
      · rw [if_pos hhead]
        exact .enter hhead
      · rw [if_neg hhead]
        exact .stay hhead
  | issuing => exact .ask
  | weighing issuedAt reply =>
      obtain ⟨log, hweighed⟩ := TokenCache.exec_weigh_session c issuedAt reply s
      change StageStep t c s _ (Act.exec (TokenCache.weigh c issuedAt reply) s).1
      rw [hweighed]
      exact stageStep_weighed t c s issuedAt s.clock.wall reply
  | keeping token validUntil ttl => exact .keep token validUntil ttl
  | writing token ttl => exact .write token ttl
  | releasing result => exact .release result
  | done result => exact .stop result

/-! ### Failures -/

namespace TokenStage

variable {t : TokenCache σ} {c : TokenCall} {s : Session σ} {stage next : TokenStage}
  {given given' : Except BrokerError (Option TokenReply) → Prop}

/-- A reply that the call weighs was given, and a failure that it ends with is that of a reply that was
given. -/
def Accounted (given : Except BrokerError (Option TokenReply) → Prop) : TokenStage → Prop
  | weighing _ reply => given reply
  | releasing (.error e) | done (.error e) => ∃ reply, given reply ∧ refusal? reply = some e
  | _ => True

theorem Accounted.mono (h : stage.Accounted given) (hmono : ∀ reply, given reply → given' reply) :
    stage.Accounted given' := by
  unfold Accounted at h ⊢
  split at h
  · exact hmono _ h
  · obtain ⟨reply, hgiven, he⟩ := h
    exact ⟨reply, hmono reply hgiven, he⟩
  · obtain ⟨reply, hgiven, he⟩ := h
    exact ⟨reply, hmono reply hgiven, he⟩
  · trivial

theorem Accounted.step (h : stage.Accounted given) (hstep : StageStep t c s stage next)
    (hask : stage = .issuing → given ((t.issuer c.account).exec s).1) : next.Accounted given := by
  cases hstep with
  | hit locked | miss locked => cases locked <;> trivial
  | ask => exact hask rfl
  | @refuse issuedAt reply e hrefusal => exact ⟨reply, h, hrefusal⟩
  | release result => cases result with
    | ok token => trivial
    | error e => exact h
  | stop => exact h
  | _ => trivial

/-! ### Coming to the end -/

/-- The number of steps to the end of a call, at most, if it does not have to wait. -/
def rank : TokenStage → Nat
  | reading false => 11
  | judging false _ => 10
  | joining => 9
  | waiting => 8
  | reading true => 7
  | judging true _ => 6
  | issuing => 5
  | weighing .. => 4
  | keeping .. => 3
  | writing .. => 2
  | releasing _ => 1
  | done _ => 0

/-- Each step takes a call closer to its end, unless it is there or has to wait. -/
theorem rank_lt (hstep : StageStep t c s stage next) (hdone : ∀ result, stage ≠ .done result)
    (hwait : stage = .waiting → (t.desk.get s.world).locks.holder? c.hash = some c.caller) :
    next.rank < stage.rank := by
  cases hstep with
  | read locked | hit locked | miss locked => cases locked <;> simp [rank]
  | stay hhead => exact absurd (hwait rfl) hhead
  | stop result => exact absurd rfl (hdone result)
  | _ => simp [rank]

end TokenStage

/-! ### Calls in company -/

namespace TokenTeam

variable {g : TokenTeam σ} {texts : σ → String → Nat → Option String} {s : Session σ}
  {w w' : TokenTraffic σ} {c : TokenCall} {i : Nat} {e : BrokerError}

/-- What the issuer answered to a call that asked for the token of an account. -/
def Given (g : TokenTeam σ) (w : TokenTraffic σ) (i : Nat) (a : Account)
    (reply : Except BrokerError (Option TokenReply)) : Prop :=
  ∃ d ∈ w.deeds, d.call = i ∧ d.stage = .issuing ∧
    ((g.issuer (g.process i) a).exec d.before).1 = reply

theorem accounted_step (hc : g.call? i = .ok c) (hstep : TeamStep g texts w w')
    (h : (w.stages i).Accounted (g.Given w i c.account)) :
    (w'.stages i).Accounted (g.Given w' i c.account) := by
  cases hstep with
  | other => exact h
  | @act j c' hc' =>
      have hmono : ∀ reply, g.Given w i c.account reply → g.Given (g.act w j c') i c.account reply :=
        fun reply ⟨d, hd, hgiven⟩ => ⟨d, deeds_subset_act w j c' hd, hgiven⟩
      by_cases hj : i = j
      · subst hj
        cases hc.symm.trans hc'
        rw [stages_act_self]
        refine (h.mono hmono).step (stageStep _ c _ w.session) fun hissuing => ?_
        exact ⟨_, List.mem_cons_self, rfl, hissuing, rfl⟩
      · rw [stages_act_of_ne hj]
        exact h.mono hmono

/-- **A call for an account has failed only if the issuer refused it a token**, whatever the calls around
it do, and whatever the store does. -/
theorem refused_of_leads (hc : g.call? i = .ok c) (hleads : g.Leads texts (g.start s) w)
    (hdone : w.stages i = .done (.error e)) :
    ∃ reply, g.Given w i c.account reply ∧ refusal? reply = some e := by
  have haccounted : (w.stages i).Accounted (g.Given w i c.account) := by
    clear hdone
    induction hleads with
    | refl =>
        have hstart : (g.start s).stages i = .reading false := by simp only [start, hc]
        rw [hstart]
        trivial
    | tail _ hstep ih => exact accounted_step hc hstep ih
  rw [hdone] at haccounted
  exact haccounted

end TokenTeam

/-! ### Calls without company -/

namespace TokenCache

variable {t : TokenCache σ} {c : TokenCall} {s : Session σ} {stage : TokenStage} {a : Account}
  {given : Except BrokerError (Option TokenReply) → Prop}

/-- The desk is a part of its own, and reading the store leaves it alone. -/
structure DeskApart (t : TokenCache σ) : Prop where
  lawful : t.desk.Lawful
  reading : ∀ key s, t.desk.get ((t.store.get key).exec s).2.world = t.desk.get s.world

/-- The issuer answers each request for an account with a token. -/
def Gives (t : TokenCache σ) (a : Account) : Prop :=
  ∀ s, ∃ r token, ((t.issuer a).exec s).1 = .ok (some r) ∧ r.token? = some token

theorem Gives.refusal?_eq (h : t.Gives a) (s : Session σ) :
    refusal? ((t.issuer a).exec s).1 = none := by
  obtain ⟨r, token, hreply, htoken⟩ := h s
  rw [hreply, refusal?, htoken]
  rfl

/-- The call is alone at the lock: there is nobody before it gets in line, and then it is the first. -/
def Alone (t : TokenCache σ) (c : TokenCall) (s : Session σ) : TokenStage → Prop
  | .reading false | .judging false _ | .joining => (t.desk.get s.world).locks.queue c.hash = []
  | .waiting => (t.desk.get s.world).locks.holder? c.hash = some c.caller
  | _ => True

theorem DeskApart.desk_judge (h : t.DeskApart) (c : TokenCall)
    (answer : Except StorageError (Option String)) (s : Session σ) :
    t.desk.get (Act.exec (t.judge c answer) s).2.world = t.desk.get s.world := by
  unfold judge
  cases answer with
  | error e => exact h.lawful _ _
  | ok text => cases text with
    | none => rfl
    | some box =>
        dsimp only
        cases t.tokenSeal.decrypt box <;> rfl

theorem DeskApart.alone_step (h : t.DeskApart) (halone : t.Alone c s stage) :
    t.Alone c (Act.exec (t.step c stage) s).2 (Act.exec (t.step c stage) s).1 := by
  cases stage with
  | reading locked => cases locked with
    | true => trivial
    | false =>
        change (t.desk.get ((t.store.get c.key).exec s).2.world).locks.queue c.hash = []
        rw [h.reading]
        exact halone
  | judging locked answer =>
      have hdesk := h.desk_judge c answer s
      unfold step
      rw [Act.exec_bind]
      rcases hexec : Act.exec (t.judge c answer) s with ⟨found, s'⟩
      rw [hexec] at hdesk
      cases found <;> cases locked
      case none.false =>
        change (t.desk.get s'.world).locks.queue c.hash = []
        rw [hdesk]
        exact halone
      all_goals trivial
  | joining =>
      change (t.desk.get (t.desk.set _ s.world)).locks.holder? c.hash = some c.caller
      rw [h.lawful, AccountLocks.holder?, AccountLocks.queue_join, halone]
      rfl
  | waiting =>
      have hstep := stageStep t c .waiting s
      rcases hexec : Act.exec (t.step c .waiting) s with ⟨next, s'⟩
      rw [hexec] at hstep
      cases hstep with
      | enter => trivial
      | stay hhead => exact absurd halone hhead
  | weighing issuedAt reply =>
      have hstep := stageStep t c (.weighing issuedAt reply) s
      rcases hexec : Act.exec (t.step c (.weighing issuedAt reply)) s with ⟨next, s'⟩
      rw [hexec] at hstep
      cases hstep <;> trivial
  | issuing | keeping | writing | releasing | done => trivial

/-- A call that is alone at the lock comes to its end within the steps of its rank, and has failed only
if it was refused. -/
theorem DeskApart.exec_finish (h : t.DeskApart) (hgiven : ∀ s, given ((t.issuer c.account).exec s).1)
    {n : Nat} (hrank : stage.rank ≤ n) (halone : t.Alone c s stage)
    (haccounted : stage.Accounted given) : ∃ result s',
      Act.exec (t.finish c n stage) s = (.done result, s') ∧
        (TokenStage.done result).Accounted given := by
  induction n generalizing stage s with
  | zero =>
      have hdone : ∃ result, stage = .done result := by
        cases stage with
        | done result => exact ⟨result, rfl⟩
        | reading locked | judging locked => cases locked <;> cases hrank
        | _ => cases hrank
      obtain ⟨result, rfl⟩ := hdone
      exact ⟨result, s, rfl, haccounted⟩
  | succ n ih =>
      by_cases hdone : ∃ result, stage = .done result
      · obtain ⟨result, rfl⟩ := hdone
        exact ⟨result, s, exec_finish_done t c _ result s, haccounted⟩
      · have hnot : ∀ result, stage ≠ .done result := fun result hr => hdone ⟨result, hr⟩
        have hstep := stageStep t c stage s
        have hlt := TokenStage.rank_lt hstep hnot fun hwaiting => by
          subst hwaiting
          exact halone
        rw [exec_finish_succ t c n stage s hnot]
        exact ih (Nat.le_of_lt_succ (Nat.lt_of_lt_of_le hlt hrank)) (h.alone_step halone)
          (haccounted.step hstep fun _ => hgiven s)

/-- **A call that finds nobody in line comes to its end**, and has failed only if it was refused. -/
theorem DeskApart.exec_answer (h : t.DeskApart)
    (hfree : (t.desk.get s.world).locks.queue c.hash = []) : ∃ result s',
      (t.answer c).exec s = (result, s') ∧
        ∀ e, result = .error e → ∃ s₁, refusal? ((t.issuer c.account).exec s₁).1 = some e := by
  obtain ⟨result, s', hfinish, haccounted⟩ : ∃ result s',
      Act.exec (t.finish c stepLimit (.reading false)) s = (.done result, s') ∧
        (TokenStage.done result).Accounted
          fun reply => ∃ s₁, ((t.issuer c.account).exec s₁).1 = reply :=
    h.exec_finish (fun s₁ => ⟨s₁, rfl⟩) (by decide) hfree trivial
  refine ⟨result, s', ?_, ?_⟩
  · unfold answer
    rw [Attempt.exec_mk, Act.exec_bind, hfinish]
    rfl
  · rintro e rfl
    obtain ⟨_, ⟨s₁, rfl⟩, hrefusal⟩ := haccounted
    exact ⟨s₁, hrefusal⟩

/-- A call that finds nobody in line gets a token from an issuer that gives one. -/
theorem DeskApart.exec_answer_ok (h : t.DeskApart) (hgives : t.Gives c.account)
    (hfree : (t.desk.get s.world).locks.queue c.hash = []) :
    ∃ token s', (t.answer c).exec s = (.ok token, s') := by
  obtain ⟨result, s', hanswer, hfails⟩ := h.exec_answer hfree
  cases result with
  | ok token => exact ⟨token, s', hanswer⟩
  | error e =>
      obtain ⟨s₁, hrefusal⟩ := hfails e rfl
      rw [hgives.refusal?_eq s₁] at hrefusal
      cases hrefusal

end TokenCache

end DailyBars
