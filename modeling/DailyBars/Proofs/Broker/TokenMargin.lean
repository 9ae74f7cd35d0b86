import DailyBars.Proofs.Broker.TokenEnds
import DailyBars.Proofs.Broker.TokenOwners

/-!
# No token is served near its end

Calls in any number of processes that share a store, as before, in runs in which the clock stands
still within a call and goes on between calls only. At first no token is kept anywhere, so every token
in the store and in a process comes from a reply of the issuer, and it is not found there any more when
only five minutes are left until its end (`Timed`): the store counts the time for which it was told to
keep a text, and the process compares instants. A reply whose token has not so much time left goes to
its caller and leaves no trace (`Sparing`).
-/

namespace DailyBars

variable {σ : Type}

open TokenReply (Leaves fiveMinutes)

namespace TokenDeed

/-- By the deed the issuer gave a reply. -/
def Answered (d : TokenDeed σ) (reply : TokenReply) : Prop :=
  d.stage = .issuing ∧ d.next = .weighing d.before.clock.wall (.ok (some reply))

/-- By the deed a call came to its end, with a token. -/
def Returns (d : TokenDeed σ) (token : String) : Prop :=
  d.next = .done (.ok token) ∧ ∀ result, d.stage ≠ .done result

end TokenDeed

namespace TokenTeam

variable {g : TokenTeam σ} {texts : σ → String → Nat → Option String} {s s' : Session σ}
  {p i : Nat} {c : TokenCall} {stage next : TokenStage} {w w' : TokenTraffic σ} {answers : Bool}
  {deeds deeds' : List (TokenDeed σ)} {hash token : String} {now : Int} {E : Instant}

/-! ### When the tokens of the issuer end -/

/-- The issuer gave a token to a call for the account of a hash, and said when it ends. -/
def EndsFor (g : TokenTeam σ) (deeds : List (TokenDeed σ)) (hash token : String) (E : Instant) :
    Prop :=
  ∃ d ∈ deeds, ∃ c reply, g.call? d.call = .ok c ∧ c.hash = hash ∧ d.Answered reply ∧
    reply.token? = some token ∧ reply.Ends d.before.clock.wall E

/-- More than five minutes are left until the end of a token that was issued for the account of a
hash. -/
def Fresh (g : TokenTeam σ) (deeds : List (TokenDeed σ)) (hash token : String) (now : Int) : Prop :=
  ∃ E, g.EndsFor deeds hash token E ∧ now + fiveMinutes < E.totalNanos

/-- A call has asked the issuer. -/
def Asked (deeds : List (TokenDeed σ)) (i : Nat) : Prop :=
  ∃ d ∈ deeds, d.call = i ∧ d.stage = .issuing

theorem EndsFor.mono (h : g.EndsFor deeds hash token E) (hsub : deeds ⊆ deeds') :
    g.EndsFor deeds' hash token E := by
  obtain ⟨d, hd, hends⟩ := h
  exact ⟨d, hsub hd, hends⟩

theorem Fresh.mono (h : g.Fresh deeds hash token now) (hsub : deeds ⊆ deeds') :
    g.Fresh deeds' hash token now := by
  obtain ⟨E, hends, hlater⟩ := h
  exact ⟨E, hends.mono hsub, hlater⟩

theorem Asked.mono (h : Asked deeds i) (hsub : deeds ⊆ deeds') : Asked deeds' i := by
  obtain ⟨d, hd, hasked⟩ := h
  exact ⟨d, hsub hd, hasked⟩

/-! ### The invariant -/

/-- What the stage of a call says of the tokens in it, at an instant. -/
def StageTimed (g : TokenTeam σ) (deeds : List (TokenDeed σ)) (now : Instant) (i : Nat)
    (hash : String) : TokenStage → Prop
  | .reading _ | .joining | .waiting | .issuing | .done _ => True
  | .judging _ answer => ∀ box token, answer = .ok (some box) →
      g.tokenSeal.decrypt box = .ok token → g.Fresh deeds hash token now.totalNanos
  | .weighing issuedAt reply => issuedAt.Regular ∧ ∃ d ∈ deeds, d.call = i ∧ d.stage = .issuing ∧
      d.before.clock.wall = issuedAt ∧ d.next = .weighing issuedAt reply
  | .keeping token validUntil ttl => Asked deeds i ∧
      ∃ E, g.EndsFor deeds hash token E ∧ Leaves now E validUntil ttl
  | .writing token ttl => Asked deeds i ∧
      ∃ E, g.EndsFor deeds hash token E ∧ now.totalNanos + ttl + fiveMinutes = E.totalNanos
  | .releasing result => ∀ token, result = .ok token →
      Asked deeds i ∨ g.Fresh deeds hash token now.totalNanos

/-- What holds of the tokens at any time. -/
structure Timed (g : TokenTeam σ) (texts : σ → String → Nat → Option String) (w : TokenTraffic σ) :
    Prop where
  regular : w.session.clock.wall.Regular
  stages : ∀ i c, g.call? i = .ok c →
    g.StageTimed w.deeds w.session.clock.wall i c.hash (w.stages i)
  /-- A token in a process is kept until five minutes before its end. -/
  held : ∀ p hash kept, (g.deskIn p w.session).held.lookup hash = some kept →
    ∃ E, g.EndsFor w.deeds hash kept.token E ∧ kept.validUntil.Regular ∧
      kept.validUntil.totalNanos + fiveMinutes = E.totalNanos
  /-- A token that the store gives at some time has more than five minutes left then. -/
  stored : ∀ hash time text token, texts w.session.world ("kis:token:" ++ hash) time = some text →
    g.tokenSeal.decrypt text = .ok token →
      g.Fresh w.deeds hash token (w.session.clock.nanosAt time)
  /-- So has one with which a call came to its end that has not asked the issuer. -/
  returned : ∀ d ∈ w.deeds, ∀ c token, g.call? d.call = .ok c → d.Returns token →
    Asked w.deeds d.call ∨ g.Fresh w.deeds c.hash token d.after.clock.wall.totalNanos

theorem StageTimed.mono {instant : Instant} (h : g.StageTimed deeds instant i hash stage)
    (hsub : deeds ⊆ deeds') : g.StageTimed deeds' instant i hash stage := by
  cases stage with
  | reading locked | joining | waiting | issuing | done => trivial
  | judging locked answer => exact fun box token hanswer hbox => (h box token hanswer hbox).mono hsub
  | weighing issuedAt reply =>
      obtain ⟨hregular, d, hd, hasked⟩ := h
      exact ⟨hregular, d, hsub hd, hasked⟩
  | keeping token validUntil ttl | writing token ttl =>
      obtain ⟨hasked, E, hends, hleft⟩ := h
      exact ⟨hasked.mono hsub, E, hends.mono hsub, hleft⟩
  | releasing result =>
      exact fun token hresult => (h token hresult).imp (·.mono hsub) (·.mono hsub)

/-- Of a call that is not under way nothing is said. -/
theorem stageTimed_of_idle {instant : Instant} (h : stage.idle) :
    g.StageTimed deeds instant i hash stage := by
  cases stage with
  | reading locked | done => trivial
  | _ => cases h

/-! ### What a step keeps -/

/-- A text that is in the store after a step was there before, or the call has written it for a time
that has not passed. -/
theorem timely_text_of_move (hstore : g.HonoursTime texts)
    (hmove : TokenMove (g.cache p) (g.view texts p s answers) c s stage next s')
    (hwrites : ∀ token ttl, stage = .writing token ttl → g.Writes texts p c token ttl s s')
    {key text : String} {time : Nat} (htext : texts s'.world key time = some text) :
    texts s.world key time = some text ∨
      key = c.key ∧ ∃ token ttl, stage = .writing token ttl ∧
        g.tokenSeal.decrypt text = .ok token ∧ time < s'.clock.uptime + ttl := by
  cases stage with
  | writing token ttl =>
      cases hwrites token ttl rfl with
      | nothing h =>
          rw [h.texts] at htext
          exact .inl htext
      | set hbox hmade hworld hclock =>
          rw [hworld] at htext
          obtain hbefore | ⟨hkey, rfl, htime⟩ := hstore _ _ _ _ _ _ _ _ htext
          · rw [hmade.texts] at hbefore
            exact .inl hbefore
          · rw [← hclock] at htime
            exact .inr ⟨hkey, token, ttl, rfl, TokenSeal.decrypt_of_encrypt hbox, htime⟩
  | _ =>
      rw [texts_of_move hmove nofun] at htext
      exact .inl htext

/-- A token that is found has more than five minutes left. -/
theorem Timed.fresh_of_found (h : g.Timed texts w) {locked : Bool}
    {answer : Except StorageError (Option String)}
    (hstage : g.StageTimed w.deeds w.session.clock.wall i c.hash (.judging locked answer))
    (hfound : (g.cache p).found? c.hash (g.deskIn p w.session) w.session.clock.wall answer =
      some token) : g.Fresh w.deeds c.hash token w.session.clock.wall.totalNanos := by
  cases answer with
  | ok text =>
      obtain ⟨box, rfl, hbox⟩ := open?_eq_some.mp hfound
      exact hstage box token rfl hbox
  | error e =>
      -- The token of the process stands in, as long as it is still served.
      obtain ⟨kept, hkept, rfl⟩ := Option.map_eq_some_iff.mp hfound
      obtain ⟨hlookup, hserved⟩ := Option.filter_eq_some_iff.mp hkept
      obtain ⟨E, hends, hregular, hleft⟩ := h.held p c.hash kept hlookup
      rw [decide_eq_true_eq, Instant.lt_iff_totalNanos_lt h.regular hregular] at hserved
      exact ⟨E, hends, by omega⟩

/-- The answer of the issuer is weighed. -/
theorem stageTimed_weighed {reply : Except BrokerError (Option TokenReply)} {instant : Instant}
    (hinstant : instant.Regular) {d : TokenDeed σ} (hd : d ∈ deeds) (hc : g.call? d.call = .ok c)
    (hask : d.stage = .issuing) (hissued : d.before.clock.wall.Regular)
    (hreply : d.next = .weighing d.before.clock.wall reply) :
    g.StageTimed deeds instant d.call c.hash
      (TokenCache.weighed d.before.clock.wall instant reply) := by
  have hasked : Asked deeds d.call := ⟨d, hd, rfl, hask⟩
  obtain ⟨result, hweighed⟩ | ⟨token, validUntil, ttl, hweighed⟩ :=
    TokenCache.weighed_cases d.before.clock.wall instant reply
  · rw [hweighed]
    exact fun _ _ => .inl hasked
  · obtain ⟨r, E, rfl, htoken, hlasts, hleaves⟩ :=
      TokenCache.lasts_of_weighed hissued hinstant hweighed
    rw [hweighed]
    exact ⟨hasked, E, ⟨d, hd, c, r, hc, rfl, ⟨hask, hreply⟩, htoken, hlasts.1⟩, hleaves⟩

/-- What a call knows after a step. -/
theorem Timed.stage_of_move (h : g.Timed texts w) (hc : g.call? i = .ok c)
    (hmove : TokenMove (g.cache (g.process i)) (g.view texts (g.process i) w.session answers) c
      w.session (w.stages i) next s')
    (hclock : s'.clock = w.session.clock) :
    g.StageTimed (⟨i, w.stages i, w.session, next, s'⟩ :: w.deeds) w.session.clock.wall i c.hash
      next := by
  have hbefore := h.stages i c hc
  have hsub : w.deeds ⊆ ⟨i, w.stages i, w.session, next, s'⟩ :: w.deeds := List.subset_cons_self ..
  generalize hstage : w.stages i = before at hmove hbefore hsub ⊢
  cases hmove with
  | read locked hreads =>
      rintro box token rfl hbox
      -- Only a store that answers gives a text.
      cases answers with
      | false =>
          obtain ⟨e, he⟩ := hreads.failure rfl
          cases he
      | true =>
          obtain ⟨time, hfrom, hto, hanswer⟩ := hreads.text rfl
          -- No time passes while the store is read.
          rw [hclock] at hto
          obtain rfl := Nat.le_antisymm hto hfrom
          have hfresh := h.stored c.hash _ box token (Except.ok.inj hanswer).symm hbox
          rw [Clock.nanosAt_uptime] at hfresh
          exact hfresh.mono hsub
  | @hit locked answer token s' hfound hkeeps =>
      have hfresh := h.fresh_of_found hbefore hfound
      cases locked with
      | false => trivial
      | true =>
          rintro _ ⟨⟩
          exact .inr (hfresh.mono hsub)
  | miss locked hfound hkeeps => cases locked <;> trivial
  | join hputs | enter hhead hkeeps | stay hkeeps => trivial
  | ask reply hkeeps => exact ⟨h.regular, _, List.mem_cons_self, rfl, rfl, rfl, rfl⟩
  | weigh issuedAt reply hkeeps =>
      obtain ⟨hissued, d, hd, rfl, hask, rfl, hreply⟩ := hbefore
      exact stageTimed_weighed h.regular (hsub hd) hc hask hissued hreply
  | keep token validUntil ttl hputs =>
      obtain ⟨hasked, E, hends, hleaves⟩ := hbefore
      have hleft := hleaves.left
      exact ⟨hasked.mono hsub, E, hends.mono hsub, by omega⟩
  | write token ttl hfollows hwritten => exact fun _ _ => .inl (hbefore.1.mono hsub)
  | release result hputs | stop result => trivial

/-- A call comes to its end with a token that it has asked for, or that it has found in time. -/
theorem Timed.returned_of_move (h : g.Timed texts w) (hc : g.call? i = .ok c)
    (hmove : TokenMove (g.cache (g.process i)) (g.view texts (g.process i) w.session answers) c
      w.session (w.stages i) next s')
    (hclock : s'.clock = w.session.clock) (hnext : next = .done (.ok token))
    (hstage : ∀ result, w.stages i ≠ .done result) :
    Asked w.deeds i ∨ g.Fresh w.deeds c.hash token s'.clock.wall.totalNanos := by
  have hbefore := h.stages i c hc
  rw [hclock]
  generalize w.stages i = before at hmove hbefore hstage
  cases hmove with
  | hit locked hfound hkeeps => cases locked with
    | true => cases hnext
    | false =>
        cases hnext
        exact .inr (h.fresh_of_found hbefore hfound)
  | miss locked hfound hkeeps => cases locked <;> cases hnext
  | weigh issuedAt reply hkeeps =>
      obtain ⟨result, hweighed⟩ | ⟨token, validUntil, ttl, hweighed⟩ :=
        TokenCache.weighed_cases issuedAt w.session.clock.wall reply
      · cases hweighed.symm.trans hnext
      · cases hweighed.symm.trans hnext
  | release result hputs =>
      cases hnext
      exact hbefore token rfl
  | stop result => exact absurd rfl (hstage result)
  | _ => cases hnext

theorem Timed.act (h : g.Timed texts w) (hg : g.Lawful texts) (hstore : g.HonoursTime texts)
    (hc : g.call? i = .ok c) (hclock : (g.act w i c).session.clock = w.session.clock) :
    g.Timed texts (g.act w i c) := by
  obtain ⟨⟨answers, hmove⟩, hwrites⟩ := hg.move (g.process i) c (w.stages i) w.session
  have hsub := deeds_subset_act (g := g) w i c
  have hown := h.stages i c hc
  constructor
  case regular =>
    rw [hclock]
    exact h.regular
  case stages =>
    intro j c' hc'
    rw [hclock]
    by_cases hji : j = i
    · subst hji
      cases hc.symm.trans hc'
      rw [stages_act_self]
      exact h.stage_of_move hc hmove hclock
    · rw [stages_act_of_ne hji]
      exact (h.stages j c' hc').mono hsub
  case held =>
    intro p hash kept hkept
    obtain hbefore | ⟨rfl, ttl, hkeeping⟩ := lookup_of_move hmove hkept
    · obtain ⟨E, hends, hleft⟩ := h.held p hash kept hbefore
      exact ⟨E, hends.mono hsub, hleft⟩
    · rw [hkeeping] at hown
      obtain ⟨-, E, hends, hleaves⟩ := hown
      have hserved := hleaves.served
      exact ⟨E, hends.mono hsub, hleaves.regular, by omega⟩
  case stored =>
    intro hash time text token htext hbox
    rw [hclock]
    obtain hbefore | ⟨hkey, token', ttl, hwriting, hbox', htime⟩ :=
      timely_text_of_move hstore hmove hwrites htext
    · exact (h.stored hash time text token hbefore hbox).mono hsub
    · obtain rfl := (String.append_right_inj _).mp hkey
      cases hbox.symm.trans hbox'
      rw [hwriting] at hown
      obtain ⟨-, E, hends, hleft⟩ := hown
      refine ⟨E, hends.mono hsub, ?_⟩
      -- The time for which the text is kept is over five minutes before the token ends.
      change time < (g.act w i c).session.clock.uptime + ttl at htime
      rw [hclock] at htime
      unfold Clock.nanosAt
      omega
  case returned =>
    intro d hd c' token hc' hreturns
    obtain rfl | hd := List.mem_cons.mp hd
    · cases hc.symm.trans hc'
      exact (h.returned_of_move hc hmove hclock hreturns.1 hreturns.2).imp (·.mono hsub) (·.mono hsub)
    · exact (h.returned d hd c' token hc' hreturns).imp (·.mono hsub) (·.mono hsub)

theorem Timed.step (h : g.Timed texts w) (hg : g.Lawful texts) (hstore : g.HonoursTime texts)
    (hstep : StillStep g texts w w') : g.Timed texts w' := by
  cases hstep with
  | act i hc hclock => exact h.act hg hstore hc hclock
  | @other s' hother hclock =>
      constructor
      case regular => exact hother.later.regular h.regular
      case stages =>
        intro i c hc
        obtain hclock | hidle := hclock
        · dsimp only
          rw [hclock]
          exact h.stages i c hc
        · exact stageTimed_of_idle (hidle i)
      case held =>
        intro p hash kept hkept
        dsimp only at hkept
        rw [hother.desks] at hkept
        exact h.held p hash kept hkept
      case stored =>
        intro hash time text token htext hbox
        dsimp only at htext ⊢
        rw [hother.texts] at htext
        rw [hother.later.nanosAt_eq]
        exact h.stored hash time text token htext hbox
      case returned => exact h.returned

theorem timed_start (hregular : s.clock.wall.Regular) (hdesks : ∀ p, g.deskIn p s = .empty)
    (htexts : ∀ key time, texts s.world key time = none) : g.Timed texts (g.start s) := by
  constructor
  case regular => exact hregular
  case stages =>
    intro i c hc
    simp [start, hc, StageTimed]
  case held =>
    intro p hash kept hkept
    change (g.deskIn p s).held.lookup hash = some kept at hkept
    rw [hdesks] at hkept
    cases hkept
  case stored =>
    intro hash time text token htext
    change texts s.world ("kis:token:" ++ hash) time = some text at htext
    rw [htexts] at htext
    cases htext
  case returned =>
    intro d hd
    cases hd

/-! ### What is not kept leaves no trace -/

/-- A call whose token has no more than five minutes left when the issuer has given it goes on to its
end with the token, and has done tidy deeds only. -/
structure Spared (g : TokenTeam σ) (texts : σ → String → Nat → Option String) (w : TokenTraffic σ)
    (d : TokenDeed σ) (reply : TokenReply) (token : String) : Prop where
  stage : (d.after.clock = w.session.clock ∧
      w.stages d.call = .weighing d.before.clock.wall (.ok (some reply))) ∨
    w.stages d.call = .releasing (.ok token) ∨ w.stages d.call = .done (.ok token)
  tidy : ∀ e ∈ w.deeds, e.call = d.call → g.TidyDeed texts e

/-- Tokens that are not kept are spared. -/
def Sparing (g : TokenTeam σ) (texts : σ → String → Nat → Option String) (w : TokenTraffic σ) : Prop :=
  ∀ d ∈ w.deeds, ∀ reply token, d.Answered reply → reply.token? = some token →
    (∀ E, ¬ reply.Lasts d.before.clock.wall d.after.clock.wall E) → g.Spared texts w d reply token

theorem sparing_start (s : Session σ) : g.Sparing texts (g.start s) := by
  intro d hd
  cases hd

/-- A token with so little time left is not kept when it is weighed. -/
theorem Timed.weighed_of_short {d : TokenDeed σ} {reply : TokenReply} (h : g.Timed texts w)
    (hc : g.call? d.call = .ok c) (hclock : d.after.clock = w.session.clock)
    (hstage : w.stages d.call = .weighing d.before.clock.wall (.ok (some reply)))
    (htoken : reply.token? = some token)
    (hshort : ∀ E, ¬ reply.Lasts d.before.clock.wall d.after.clock.wall E) :
    TokenCache.weighed d.before.clock.wall w.session.clock.wall (.ok (some reply)) =
      .releasing (.ok token) := by
  have hregular := h.regular
  have hown := h.stages d.call c hc
  rw [hstage] at hown
  rw [← hclock] at hregular ⊢
  exact TokenCache.weighed_of_not_lasts hown.1 hregular htoken hshort

/-- A call with such a token goes on. -/
theorem Spared.goOn {d : TokenDeed σ} {reply : TokenReply} (h : g.Spared texts w d reply token)
    (htimed : g.Timed texts w) (hc : g.call? d.call = .ok c) (htoken : reply.token? = some token)
    (hshort : ∀ E, ¬ reply.Lasts d.before.clock.wall d.after.clock.wall E)
    (hmove : TokenMove (g.cache p) (g.view texts p w.session answers) c w.session (w.stages d.call)
      next s') :
    g.TidyDeed texts ⟨d.call, w.stages d.call, w.session, next, s'⟩ ∧
      (next = .releasing (.ok token) ∨ next = .done (.ok token)) := by
  obtain ⟨hclock, hstage⟩ | hstage | hstage := h.stage
  · have hweighed := htimed.weighed_of_short hc hclock hstage htoken hshort
    rw [hstage] at hmove ⊢
    refine ⟨tidyDeed_of_move hmove rfl, ?_⟩
    cases hmove with
    | weigh issuedAt reply' hkeeps => exact .inl hweighed
  · rw [hstage] at hmove ⊢
    refine ⟨tidyDeed_of_move hmove rfl, ?_⟩
    cases hmove with
    | release result hputs => exact .inr rfl
  · rw [hstage] at hmove ⊢
    refine ⟨tidyDeed_of_move hmove rfl, ?_⟩
    cases hmove with
    | stop result => exact .inr rfl

/-- Two steps bring such a call to its end, if it is not there yet. -/
theorem Spared.finish {d : TokenDeed σ} {reply : TokenReply} (h : g.Spared texts w d reply token)
    (htimed : g.Timed texts w) (hc : g.call? d.call = .ok c) (htoken : reply.token? = some token)
    (hshort : ∀ E, ¬ reply.Lasts d.before.clock.wall d.after.clock.wall E) :
    (Act.exec ((g.cache p).finish c 2 (w.stages d.call)) w.session).1 = .done (.ok token) := by
  obtain ⟨hclock, hstage⟩ | hstage | hstage := h.stage
  · obtain ⟨log, hweighed⟩ := TokenCache.exec_weigh_session c d.before.clock.wall
      (.ok (some reply)) w.session
    rw [htimed.weighed_of_short hc hclock hstage htoken hshort] at hweighed
    rw [hstage, TokenCache.exec_finish_succ _ c 1
      (.weighing d.before.clock.wall (.ok (some reply))) _ nofun]
    change (Act.exec ((g.cache p).finish c 1 (Act.exec (TokenCache.weigh c d.before.clock.wall
      (.ok (some reply))) w.session).1) _).1 = _
    rw [hweighed, TokenCache.exec_finish_releasing]
  · rw [hstage, TokenCache.exec_finish_releasing]
  · rw [hstage, TokenCache.exec_finish_done]

theorem Sparing.act (h : g.Sparing texts w) (hg : g.Lawful texts) (htimed : g.Timed texts w)
    (htidy : g.Tidy texts w) (hc : g.call? i = .ok c)
    (hclock : (g.act w i c).session.clock = w.session.clock) : g.Sparing texts (g.act w i c) := by
  obtain ⟨⟨answers, hmove⟩, -⟩ := hg.move (g.process i) c (w.stages i) w.session
  intro d hd reply token hanswered htoken hshort
  have hself := stages_act_self (g := g) w i c
  obtain rfl | hd := List.mem_cons.mp hd
  · -- The issuer has just answered, and the call has done nothing but look for a token before.
    obtain ⟨hstage, hnext⟩ := hanswered
    dsimp only at hstage hnext
    refine ⟨.inl ⟨rfl, hself.trans hnext⟩, fun e he hcall => ?_⟩
    obtain rfl | he := List.mem_cons.mp he
    · exact tidyDeed_of_move hmove (by rw [hstage]; rfl)
    · exact htidy i (by rw [hstage]; rfl) e he hcall
  · have hspared := h d hd reply token hanswered htoken hshort
    by_cases hcall : d.call = i
    · subst hcall
      obtain ⟨hdeed, hnext⟩ := hspared.goOn htimed hc htoken hshort hmove
      refine ⟨.inr ?_, fun e he hcall => ?_⟩
      · rw [hself]
        exact hnext
      · obtain rfl | he := List.mem_cons.mp he
        · exact hdeed
        · exact hspared.tidy e he hcall
    · refine ⟨?_, fun e he hcall' => ?_⟩
      · rw [stages_act_of_ne hcall, hclock]
        exact hspared.stage
      · obtain rfl | he := List.mem_cons.mp he
        · exact absurd hcall'.symm hcall
        · exact hspared.tidy e he hcall'

theorem Sparing.step (h : g.Sparing texts w) (hg : g.Lawful texts) (htimed : g.Timed texts w)
    (htidy : g.Tidy texts w) (hstep : StillStep g texts w w') : g.Sparing texts w' := by
  cases hstep with
  | act i hc hclock => exact h.act hg htimed htidy hc hclock
  | @other s' hother hclock =>
      intro d hd reply token hanswered htoken hshort
      have hspared := h d hd reply token hanswered htoken hshort
      refine ⟨?_, hspared.tidy⟩
      obtain ⟨hsame, hstage⟩ | hdone := hspared.stage
      · refine .inl ⟨?_, hstage⟩
        obtain hclock | hidle := hclock
        · exact hsame.trans hclock.symm
        · -- Time passes only when no answer is being weighed.
          have hcall := hidle d.call
          rw [hstage] at hcall
          cases hcall
      · exact .inr hdone

/-! ### No token is served near its end -/

/-- What holds of tokens and time. -/
structure KeepsMargin (g : TokenTeam σ) (texts : σ → String → Nat → Option String)
    (w : TokenTraffic σ) : Prop where
  /-- A token with which a call came to its end that has not asked the issuer, whether it was found in
  the store or in the process, was issued for its account, and it had more than five minutes left. -/
  served : ∀ d ∈ w.deeds, ∀ c token, g.call? d.call = .ok c → d.Returns token →
    ¬ Asked w.deeds d.call → ∃ E, g.EndsFor w.deeds c.hash token E ∧
      d.after.clock.wall.totalNanos + fiveMinutes < E.totalNanos
  /-- A call to which the issuer gave a token with less time left comes to its end with this token,
  two steps later at most, … -/
  given : ∀ d ∈ w.deeds, ∀ c reply token, g.call? d.call = .ok c → d.Answered reply →
    reply.token? = some token → (∀ E, ¬ reply.Lasts d.before.clock.wall d.after.clock.wall E) →
      (Act.exec ((g.cache (g.process d.call)).finish c 2 (w.stages d.call)) w.session).1 =
        .done (.ok token)
  /-- … and has changed neither the store nor what the processes keep. -/
  spared : ∀ d ∈ w.deeds, ∀ reply token, d.Answered reply → reply.token? = some token →
    (∀ E, ¬ reply.Lasts d.before.clock.wall d.after.clock.wall E) →
      ∀ e ∈ w.deeds, e.call = d.call → g.TidyDeed texts e

/-- **No token is served near its end.** Whatever the issuer says of the end of a token, and whenever
it is asked, the call comes to its end with the token, and the token is kept exactly if more than five
minutes are left, until five minutes before its end. So if no token is kept at first, and the clock
stands still within a call, then no call gets a token from the store or from its process that has only
five minutes left, however often the store fails. -/
theorem keepsMargin_of_leads (hg : g.Lawful texts) (hstore : g.HonoursTime texts)
    (hregular : s.clock.wall.Regular) (hdesks : ∀ p, g.deskIn p s = .empty)
    (htexts : ∀ key time, texts s.world key time = none)
    (hleads : g.LeadsStill texts (g.start s) w) :
    (∀ (t : TokenCache σ) (c : TokenCall) (r : TokenReply) (before after : Session σ),
      (t.issuer c.account).exec before = (.ok (some r), after) → before.clock.wall.Regular →
      after.clock.wall.Regular → after.clock.wall.inCalendar →
        t.Refreshes c before.clock.wall r after (Act.exec (t.finish c 5 .issuing) before)) ∧
      g.KeepsMargin texts w := by
  have hinvariant : g.Timed texts w ∧ g.Tidy texts w ∧ g.Sparing texts w := by
    induction hleads with
    | refl => exact ⟨timed_start hregular hdesks htexts, tidy_start s, sparing_start s⟩
    | tail _ hstep ih =>
        obtain ⟨htimed, htidy, hsparing⟩ := ih
        exact ⟨htimed.step hg hstore hstep, htidy.step hg (step_of_still hstep),
          hsparing.step hg htimed htidy hstep⟩
  obtain ⟨htimed, htidy, hsparing⟩ := hinvariant
  refine ⟨fun t c r before after => t.refreshes c, ?_⟩
  constructor
  case served =>
    intro d hd c token hc hreturns hasked
    exact (htimed.returned d hd c token hc hreturns).resolve_left hasked
  case given =>
    intro d hd c reply token hc hanswered htoken hshort
    exact (hsparing d hd reply token hanswered htoken hshort).finish htimed hc htoken hshort
  case spared =>
    intro d hd reply token hanswered htoken hshort
    exact (hsparing d hd reply token hanswered htoken hshort).tidy

end TokenTeam

/-! ### A token that is served an hour later, and one that is not kept -/

namespace TwoProcesses

/-- A reply whose token ends in five minutes. -/
def brief : TokenReply := ⟨some "brief", none, some "Bearer", some 300⟩

/-- No token is kept anywhere, and the issuer has an answer for each account. -/
def freshSession : Session TeamWorld :=
  ⟨⟨⟨[], false, false⟩,
      ⟨[(main.number, [.ok (some reply)]), (savings.number, [.ok (some brief)])], []⟩,
      fun _ => .empty⟩, ⟨.ofNanos 1700000000000000000, 0⟩, []⟩

/-- The token of the main account is issued in one process. -/
def morning : TokenTraffic TeamWorld := (List.replicate 11 0).foldl goOn (team.start freshSession)

/-- An hour later. -/
def noon : TokenTraffic TeamWorld :=
  { morning with session :=
    { morning.session with clock := morning.session.clock.advance 3600000000000 } }

/-- It is served in the other process, where the token of the savings ends too soon. -/
def evening : TokenTraffic TeamWorld := ([3, 3] ++ List.replicate 9 1).foldl goOn noon

theorem stages_goOn_of_ne {i j : Nat} (h : j ≠ i) (w : TokenTraffic TeamWorld) :
    (goOn w i).stages j = w.stages j := by
  unfold goOn
  split
  · exact TokenTeam.stages_act_of_ne h ..
  · rfl

theorem idle_morning (i : Nat) : (morning.stages i).idle := by
  by_cases hi : i = 0
  · subst hi
    decide +kernel
  · have hsame : morning.stages i = (team.start freshSession).stages i := by
      simp only [morning, List.replicate, List.foldl, stages_goOn_of_ne hi]
    rw [hsame]
    unfold TokenTeam.start
    dsimp only
    split <;> rfl

theorem leadsStill_evening :
    team.LeadsStill TeamWorld.texts (team.start freshSession) evening := by
  have hpass : StillStep team TeamWorld.texts morning noon :=
    .other (TeamWorld.untouched_advance ..) (.inr idle_morning)
  exact ((leadsStill_foldl _ _).tail hpass).trans (leadsStill_foldl _ _)

/-- The call that asks for the token of the main account. -/
def mainCall : TokenCall := ⟨main, "5c1a30535187008c", 0⟩

/-- After the issuer has given it. -/
def issued : Session TeamWorld := ((team.issuer 0 main).exec freshSession).2

/-- The token of the main account is kept, and it is served with most of its day left; the one that
ends too soon is not kept. -/
theorem keepsMargin_evening :
    (team.cache 0).Refreshes mainCall freshSession.clock.wall reply issued
        (Act.exec ((team.cache 0).finish mainCall 5 .issuing) freshSession) ∧
      team.KeepsMargin TeamWorld.texts evening := by
  have hregular : freshSession.clock.wall.Regular := Instant.regular_ofNanos 1700000000000000000
  obtain ⟨hrefreshes, hkeeps⟩ := TokenTeam.keepsMargin_of_leads (TeamWorld.lawful_team ..)
    (TeamWorld.honoursTime_team _ _ _ _ _) hregular (fun _ => rfl) (fun _ _ => rfl)
    leadsStill_evening
  exact ⟨hrefreshes (team.cache 0) mainCall reply freshSession issued rfl hregular hregular
    (by decide), hkeeps⟩

end TwoProcesses

end DailyBars
