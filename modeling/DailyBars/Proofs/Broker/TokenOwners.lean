import DailyBars.Proofs.Rehearsal.Team

/-!
# Tokens stay with their accounts

Processes share a store, and calls for many accounts are made in them at once. Wherever a token is, in
the store, on the desk of a process, or on the way to its caller, it was issued for the account under
whose hash it is known there (`Sound`). What a failing call does is done by then: it has kept and
written nothing (`Tidy`), and it is at no lock any more (`InLine`).
-/

namespace DailyBars

variable {σ : Type}

/-- Stages in which a call has kept no token in the process and written none to the store. -/
def TokenStage.tidy : TokenStage → Bool
  | .writing .. | .releasing (.ok _) | .done (.ok _) => false
  | _ => true

/-- Stages in which a call is about to keep a token in the process, or to write it to the store. -/
def TokenStage.caches : TokenStage → Bool
  | .keeping .. | .writing .. => true
  | _ => false

namespace TokenDesk

/-- The token of an account is the one that was kept last, and those of the others stay. -/
theorem lookup_keep (d : TokenDesk) (hash other : String) (t : HeldToken) :
    (d.keep hash t).held.lookup other = if other = hash then some t else d.held.lookup other := by
  by_cases h : other = hash
  · subst h
    simp [keep]
  · have hothers : (d.held.filter (·.1 ≠ hash)).lookup other = d.held.lookup other := by
      generalize d.held = held
      induction held with
      | nil => rfl
      | cons x rest ih => grind
    have hne : (other == hash) = false := by simpa using h
    simp only [keep, List.lookup_cons, hne, h, if_false, hothers]

end TokenDesk

/-- A call that weighs the answer of the issuer keeps the lock. -/
theorem TokenCache.holds_weighed (issuedAt now : Instant)
    (reply : Except BrokerError (Option TokenReply)) : (weighed issuedAt now reply).holds := by
  unfold weighed
  split
  · rfl
  · rfl
  · split
    · rfl
    · split <;> rfl

namespace TokenTeam

variable {g : TokenTeam σ} {texts : σ → String → Nat → Option String} {s s' s₀ : Session σ}
  {p i : Nat} {c : TokenCall} {stage next : TokenStage} {w w' : TokenTraffic σ} {answers : Bool}

/-! ### The lines at the locks -/

/-- The stages of the calls in a process for the accounts of a hash; no other is at their lock. -/
def stagesAt (g : TokenTeam σ) (p : Nat) (hash : String) (stages : Nat → TokenStage) (i : Nat) :
    TokenStage :=
  match g.call? i with
  | .ok c => if g.process i = p ∧ c.hash = hash then stages i else .reading false
  | .error _ => .reading false

/-- At every lock of every process stand the calls that wait for it or hold it. -/
def InLine (g : TokenTeam σ) (w : TokenTraffic σ) : Prop :=
  ∀ p hash, Line ((g.deskIn p w.session).locks.queue hash) (g.stagesAt p hash w.stages)

theorem stagesAt_update (hc : g.call? i = .ok c) (stages : Nat → TokenStage) :
    g.stagesAt (g.process i) c.hash (Function.update stages i next) =
      Function.update (g.stagesAt (g.process i) c.hash stages) i next := by
  funext j
  by_cases hj : j = i
  · subst hj
    simp [stagesAt, hc]
  · simp [stagesAt, hj]

theorem stagesAt_self (hc : g.call? i = .ok c) (stages : Nat → TokenStage) :
    g.stagesAt (g.process i) c.hash stages i = stages i := by
  simp [stagesAt, hc]

theorem stagesAt_update_of_ne (hc : g.call? i = .ok c) {hash : String}
    (hne : ¬ (g.process i = p ∧ c.hash = hash)) (stages : Nat → TokenStage) :
    g.stagesAt p hash (Function.update stages i next) = g.stagesAt p hash stages := by
  funext j
  by_cases hj : j = i
  · subst hj
    simp [stagesAt, hc, hne]
  · simp [stagesAt, hj]

/-- A step that changes only the line at the lock of the call. -/
theorem InLine.goOn (h : g.InLine w) (hc : g.call? i = .ok c) {deeds : List (TokenDeed σ)}
    (hothers : ∀ p hash, ¬ (g.process i = p ∧ c.hash = hash) →
      (g.deskIn p s').locks.queue hash = (g.deskIn p w.session).locks.queue hash)
    (hline : Line ((g.deskIn (g.process i) s').locks.queue c.hash)
      (Function.update (g.stagesAt (g.process i) c.hash w.stages) i next)) :
    g.InLine ⟨s', Function.update w.stages i next, deeds⟩ := by
  intro p hash
  by_cases hown : g.process i = p ∧ c.hash = hash
  · obtain ⟨rfl, rfl⟩ := hown
    rw [stagesAt_update hc]
    exact hline
  · rw [stagesAt_update_of_ne hc hown]
    dsimp only
    rw [hothers p hash hown]
    exact h p hash

/-- A step that leaves the locks alone. -/
theorem InLine.quiet (h : g.InLine w) (hc : g.call? i = .ok c) {deeds : List (TokenDeed σ)}
    (hlocks : ∀ p, (g.deskIn p s').locks = (g.deskIn p w.session).locks)
    (hline : next.inLine = (w.stages i).inLine) (hholds : next.holds → (w.stages i).holds) :
    g.InLine ⟨s', Function.update w.stages i next, deeds⟩ := by
  refine h.goOn hc (fun p hash _ => by rw [hlocks]) ?_
  rw [hlocks]
  have hself := stagesAt_self hc w.stages
  refine (h _ _).goOn (by rw [hself]; exact hline) fun hn => (h _ _).head i ?_
  rw [hself]
  exact hholds hn

/-- What happens at the lock of the call leaves the other locks alone. -/
theorem queue_of_ne {l : AccountLocks} {held : List (String × HeldToken)}
    (hfollows : (g.cache p).Follows (g.view texts p s answers) ⟨held, l⟩ s s') {hash : String}
    (hl : ∀ other, other ≠ hash → l.queue other = (g.deskIn p s).locks.queue other) {q : Nat}
    {other : String} (hne : ¬ (p = q ∧ hash = other)) :
    (g.deskIn q s').locks.queue other = (g.deskIn q s).locks.queue other := by
  by_cases hq : q = p
  · subst hq
    have hdesk : g.deskIn q s' = ⟨held, l⟩ := hfollows.desk
    rw [hdesk]
    exact hl other fun heq => hne ⟨rfl, heq.symm⟩
  · rw [others_of_follows hfollows hq]

/-- What a step leaves as it is on the desk of the call it leaves on every desk. -/
theorem desk_of_follows {α : Type} (f : TokenDesk → α) {d : TokenDesk}
    (hfollows : (g.cache p).Follows (g.view texts p s answers) d s s')
    (hd : f d = f (g.deskIn p s)) (q : Nat) : f (g.deskIn q s') = f (g.deskIn q s) := by
  by_cases hq : q = p
  · subst hq
    have hdesk : g.deskIn q s' = d := hfollows.desk
    rw [hdesk, hd]
  · rw [others_of_follows hfollows hq]

theorem InLine.move (h : g.InLine w) (hc : g.call? i = .ok c) {deeds : List (TokenDeed σ)}
    (hmove : TokenMove (g.cache (g.process i)) (g.view texts (g.process i) w.session answers) c
      w.session (w.stages i) next s') :
    g.InLine ⟨s', Function.update w.stages i next, deeds⟩ := by
  have hcaller := (of_call? hc).2.2
  have hself := stagesAt_self hc w.stages
  have hlocks : ∀ {t : Session σ}, g.Untouched texts w.session t → ∀ p,
      (g.deskIn p t).locks = (g.deskIn p w.session).locks := fun hkeeps p => by rw [hkeeps.desks]
  generalize hstage : w.stages i = before at hmove
  cases hmove with
  | read locked hreads =>
      exact h.quiet hc (hlocks (untouched_of_keeps hreads.keeps)) (by rw [hstage]; rfl)
        (by rw [hstage]; exact id)
  | hit locked hfound hkeeps =>
      refine h.quiet hc (hlocks (untouched_of_keeps hkeeps)) ?_ ?_ <;> rw [hstage] <;> cases locked
      all_goals first | rfl | exact id
  | miss locked hfound hkeeps =>
      refine h.quiet hc (hlocks (untouched_of_keeps hkeeps)) ?_ ?_ <;> rw [hstage] <;> cases locked
      all_goals first | rfl | exact id
  | join hputs =>
      refine h.goOn hc (fun q other hne => queue_of_ne hputs.toFollows (fun other hother => ?_) hne) ?_
      · exact (AccountLocks.queue_setQueue _ _ _ _).trans (if_neg hother)
      · have hdesk : g.deskIn (g.process i) s' = _ := hputs.desk
        rw [hdesk]
        dsimp only
        rw [AccountLocks.queue_join, hcaller]
        exact (h _ _).join (by rw [hself, hstage]; rfl)
  | enter hhead hkeeps =>
      refine h.goOn hc (fun p hash _ => by rw [hlocks (untouched_of_keeps hkeeps)]) ?_
      rw [hlocks (untouched_of_keeps hkeeps)]
      exact (h _ _).goOn (by rw [hself, hstage]; rfl) fun _ => hhead.trans (congrArg some hcaller)
  | stay hkeeps =>
      exact h.quiet hc (hlocks (untouched_of_keeps hkeeps)) (by rw [hstage]) (by rw [hstage]; exact id)
  | ask reply hkeeps =>
      exact h.quiet hc (hlocks (untouched_of_keeps hkeeps)) (by rw [hstage]; rfl)
        (by rw [hstage]; exact id)
  | weigh issuedAt reply hkeeps =>
      have hholds := TokenCache.holds_weighed issuedAt w.session.clock.wall reply
      refine h.quiet hc (hlocks (untouched_of_keeps hkeeps)) ?_ fun _ => by rw [hstage]; rfl
      rw [TokenStage.inLine_of_holds hholds, hstage]
      rfl
  | keep token validUntil ttl hputs =>
      exact h.quiet hc (desk_of_follows (·.locks) hputs.toFollows rfl) (by rw [hstage]; rfl)
        (by rw [hstage]; exact id)
  | write token ttl hfollows hwritten =>
      exact h.quiet hc (desk_of_follows (·.locks) hfollows rfl) (by rw [hstage]; rfl)
        (by rw [hstage]; exact id)
  | release result hputs =>
      refine h.goOn hc (fun q other hne => queue_of_ne hputs.toFollows (fun other hother => ?_) hne) ?_
      · exact (AccountLocks.queue_setQueue _ _ _ _).trans (if_neg hother)
      · have hdesk : g.deskIn (g.process i) s' = _ := hputs.desk
        rw [hdesk]
        dsimp only
        rw [AccountLocks.queue_release]
        exact (h _ _).leave (by rw [hself, hstage]; rfl) rfl
  | stop result =>
      exact h.quiet hc (fun _ => rfl) (by rw [hstage]) (by rw [hstage]; exact id)

theorem inLine_start (hempty : ∀ p, g.deskIn p s = .empty) : g.InLine (g.start s) := by
  intro p hash
  have hqueue : (g.deskIn p (g.start s).session).locks.queue hash = [] := by
    change (g.deskIn p s).locks.queue hash = []
    rw [hempty]
    rfl
  have hstages : g.stagesAt p hash (g.start s).stages = fun _ => .reading false := by
    funext i
    unfold stagesAt
    cases hcall : g.call? i with
    | error e => rfl
    | ok c => simp [start, hcall]
  rw [hqueue, hstages]
  exact Line.start

theorem InLine.step (h : g.InLine w) (hg : g.Lawful texts) (hstep : TeamStep g texts w w') :
    g.InLine w' := by
  cases hstep with
  | act i hc =>
      obtain ⟨⟨answers, hmove⟩, -⟩ := hg.move (g.process i) _ (w.stages i) w.session
      exact h.move hc hmove
  | other hother =>
      intro p hash
      dsimp only
      rw [hother.desks]
      exact h p hash

/-- A call that is at its end is at no lock. -/
theorem InLine.not_mem (h : g.InLine w) {result : Except BrokerError String}
    (hdone : w.stages i = .done result) (p : Nat) (hash : String) :
    i ∉ (g.deskIn p w.session).locks.queue hash := by
  intro hmem
  have hinLine := ((h p hash).mem i).mp hmem
  unfold stagesAt at hinLine
  cases hcall : g.call? i with
  | error e =>
      rw [hcall] at hinLine
      cases hinLine
  | ok c =>
      rw [hcall, hdone] at hinLine
      dsimp only at hinLine
      split at hinLine <;> cases hinLine

/-! ### What a failing call leaves behind -/

/-- A deed by which nothing is kept in a process or written to the store. -/
def TidyDeed (g : TokenTeam σ) (texts : σ → String → Nat → Option String) (d : TokenDeed σ) : Prop :=
  texts d.after.world = texts d.before.world ∧
    ∀ p, (g.deskIn p d.after).held = (g.deskIn p d.before).held

/-- Calls in tidy stages have done tidy deeds only. -/
def Tidy (g : TokenTeam σ) (texts : σ → String → Nat → Option String) (w : TokenTraffic σ) : Prop :=
  ∀ i, (w.stages i).tidy → ∀ d ∈ w.deeds, d.call = i → g.TidyDeed texts d

/-- Tokens come to a desk only where a call keeps one. -/
theorem held_of_move (hmove : TokenMove (g.cache p) (g.view texts p s answers) c s stage next s')
    (hstage : ∀ token validUntil ttl, stage ≠ .keeping token validUntil ttl) (q : Nat) :
    (g.deskIn q s').held = (g.deskIn q s).held := by
  cases hmove with
  | read locked hreads => exact desk_of_follows (·.held) hreads.keeps.toFollows rfl q
  | hit _ _ hkeeps | miss _ _ hkeeps | enter _ hkeeps | stay hkeeps | ask _ hkeeps
  | weigh _ _ hkeeps => exact desk_of_follows (·.held) hkeeps.toFollows rfl q
  | join hputs | release _ hputs => exact desk_of_follows (·.held) hputs.toFollows rfl q
  | write _ _ hfollows _ => exact desk_of_follows (·.held) hfollows rfl q
  | stop => rfl
  | keep token validUntil ttl => exact absurd rfl (hstage token validUntil ttl)

/-- Texts come to the store only where a call writes one. -/
theorem texts_of_move (hmove : TokenMove (g.cache p) (g.view texts p s answers) c s stage next s')
    (hstage : ∀ token ttl, stage ≠ .writing token ttl) : texts s'.world = texts s.world := by
  cases hmove with
  | read locked hreads => exact hreads.keeps.texts
  | hit _ _ h | miss _ _ h | enter _ h | stay h | ask _ h | weigh _ _ h | join h | release _ h
  | keep _ _ _ h => exact h.texts
  | stop => rfl
  | write token ttl => exact absurd rfl (hstage token ttl)

theorem tidyDeed_of_move
    (hmove : TokenMove (g.cache p) (g.view texts p s answers) c s stage next s')
    (hstage : stage.caches = false) : g.TidyDeed texts ⟨i, stage, s, next, s'⟩ := by
  refine ⟨texts_of_move hmove ?_, held_of_move hmove ?_⟩
  · rintro token ttl rfl
    cases hstage
  · rintro token validUntil ttl rfl
    cases hstage

/-- A call comes to a tidy stage from a tidy stage only, and by a tidy deed. -/
theorem tidy_of_move (hmove : TokenMove (g.cache p) (g.view texts p s answers) c s stage next s')
    (hnext : next.tidy) : stage.tidy ∧ g.TidyDeed texts ⟨i, stage, s, next, s'⟩ := by
  have hstage : stage.tidy ∧ stage.caches = false := by
    cases hmove with
    | keep | write => cases hnext
    | release result => cases result with
      | ok token => cases hnext
      | error e => exact ⟨rfl, rfl⟩
    | stop => exact ⟨hnext, rfl⟩
    | _ => exact ⟨rfl, rfl⟩
  exact ⟨hstage.1, tidyDeed_of_move hmove hstage.2⟩

theorem tidy_start (s : Session σ) : g.Tidy texts (g.start s) := by
  intro i _ d hd
  cases hd

theorem Tidy.step (h : g.Tidy texts w) (hg : g.Lawful texts) (hstep : TeamStep g texts w w') :
    g.Tidy texts w' := by
  cases hstep with
  | other hother => exact h
  | @act i c hc =>
      obtain ⟨⟨answers, hmove⟩, -⟩ := hg.move (g.process i) c (w.stages i) w.session
      intro j hj d hd hcall
      by_cases hji : j = i
      · subst hji
        rw [stages_act_self] at hj
        obtain ⟨hstage, hdeed⟩ := tidy_of_move (i := j) hmove hj
        obtain rfl | hd := List.mem_cons.mp hd
        · exact hdeed
        · exact h j hstage d hd hcall
      · rw [stages_act_of_ne hji] at hj
        obtain rfl | hd := List.mem_cons.mp hd
        · exact absurd hcall.symm hji
        · exact h j hj d hd hcall

/-! ### Where tokens come from -/

/-- The issuer gave a token to a call for an account. -/
def Issued (g : TokenTeam σ) (deeds : List (TokenDeed σ)) (a : Account) (token : String) : Prop :=
  ∃ d ∈ deeds, ∃ c issuedAt reply, g.call? d.call = .ok c ∧ c.account = a ∧ d.stage = .issuing ∧
    d.next = .weighing issuedAt (.ok (some reply)) ∧ reply.token? = some token

/-- A token was issued for an account, now or earlier, and is not blank. -/
def Known (g : TokenTeam σ) (earlier : Account → String → Prop) (deeds : List (TokenDeed σ))
    (a : Account) (token : String) : Prop :=
  (earlier a token ∧ Text.isBlankText token = false) ∨ g.Issued deeds a token

/-- A text is a sealed token, under the key of the account for which it was issued. -/
def Sealed (g : TokenTeam σ) (deeds : List (TokenDeed σ)) (key text : String) : Prop :=
  ∃ a ∈ g.config.accounts, ∃ hash token, g.hasher.hash a.number = .ok hash ∧
    key = "kis:token:" ++ hash ∧ g.tokenSeal.decrypt text = .ok token ∧ g.Issued deeds a token

/-- Accounts of the same hash are the same. -/
def Distinct (g : TokenTeam σ) : Prop :=
  ∀ a ∈ g.config.accounts, ∀ b ∈ g.config.accounts, ∀ hash, g.hasher.hash a.number = .ok hash →
    g.hasher.hash b.number = .ok hash → a = b

/-- What the store has for the accounts at the beginning are tokens that were issued for them, as far
as it can be opened. -/
def Inherits (g : TokenTeam σ) (texts : σ → String → Nat → Option String)
    (earlier : Account → String → Prop) (s : Session σ) : Prop :=
  ∀ a ∈ g.config.accounts, ∀ hash, g.hasher.hash a.number = .ok hash → ∀ time box token,
    texts s.world ("kis:token:" ++ hash) time = some box → g.tokenSeal.decrypt box = .ok token →
      earlier a token ∧ Text.isBlankText token = false

variable {earlier : Account → String → Prop} {deeds deeds' : List (TokenDeed σ)} {a : Account}
  {token : String}

theorem Issued.mono (h : g.Issued deeds a token) (hsub : deeds ⊆ deeds') :
    g.Issued deeds' a token := by
  obtain ⟨d, hd, hissued⟩ := h
  exact ⟨d, hsub hd, hissued⟩

theorem Known.mono (h : g.Known earlier deeds a token) (hsub : deeds ⊆ deeds') :
    g.Known earlier deeds' a token :=
  h.imp_right (·.mono hsub)

theorem Known.not_blank (h : g.Known earlier deeds a token) : Text.isBlankText token = false := by
  obtain ⟨-, hblank⟩ | ⟨d, -, c, issuedAt, reply, -, -, -, -, htoken⟩ := h
  · exact hblank
  · simpa using (Option.filter_eq_some_iff.mp htoken).2

/-- What the stage of a call for an account says of the tokens in it. -/
def StageSound (g : TokenTeam σ) (earlier : Account → String → Prop) (deeds : List (TokenDeed σ))
    (i : Nat) (a : Account) : TokenStage → Prop
  | .reading _ | .joining | .waiting | .issuing => True
  | .judging _ answer => ∀ box token, answer = .ok (some box) →
      g.tokenSeal.decrypt box = .ok token → g.Known earlier deeds a token
  | .weighing issuedAt reply => ∃ d ∈ deeds, d.call = i ∧ d.stage = .issuing ∧
      d.next = .weighing issuedAt reply
  | .keeping token _ _ | .writing token _ => g.Issued deeds a token
  | .releasing result | .done result => ∀ token, result = .ok token → g.Known earlier deeds a token

theorem StageSound.mono (h : g.StageSound earlier deeds i a stage) (hsub : deeds ⊆ deeds') :
    g.StageSound earlier deeds' i a stage := by
  cases stage with
  | reading locked | joining | waiting | issuing => trivial
  | judging locked answer => exact fun box token hanswer hbox => (h box token hanswer hbox).mono hsub
  | weighing issuedAt reply =>
      obtain ⟨d, hd, hask⟩ := h
      exact ⟨d, hsub hd, hask⟩
  | keeping token validUntil ttl | writing token ttl => exact Issued.mono h hsub
  | releasing result | done result => exact fun token hresult => (h token hresult).mono hsub

/-- What holds of the calls at any time. -/
structure Sound (g : TokenTeam σ) (texts : σ → String → Nat → Option String)
    (earlier : Account → String → Prop) (s₀ : Session σ) (w : TokenTraffic σ) : Prop where
  stages : ∀ i c, g.call? i = .ok c → g.StageSound earlier w.deeds i c.account (w.stages i)
  /-- A token on a desk was issued for the account of its hash. -/
  held : ∀ p hash kept, (g.deskIn p w.session).held.lookup hash = some kept →
    ∀ a ∈ g.config.accounts, g.hasher.hash a.number = .ok hash → g.Issued w.deeds a kept.token
  /-- A text in the store was there at the beginning, or is a sealed token. -/
  stored : ∀ key time text, texts w.session.world key time = some text →
    texts s₀.world key time = some text ∨ g.Sealed w.deeds key text

/-- A token that is found in the store for an account was issued for it. -/
theorem Sound.known_of_text (h : g.Sound texts earlier s₀ w) (hdistinct : g.Distinct)
    (hinherits : g.Inherits texts earlier s₀) (ha : a ∈ g.config.accounts) {hash box : String}
    (hhash : g.hasher.hash a.number = .ok hash) {time : Nat}
    (htext : texts w.session.world ("kis:token:" ++ hash) time = some box)
    (hbox : g.tokenSeal.decrypt box = .ok token) : g.Known earlier w.deeds a token := by
  obtain hstart | ⟨b, hb, other, token', hother, hkey, hbox', hissued⟩ := h.stored _ _ _ htext
  · exact .inl (hinherits a ha hash hhash time box token hstart hbox)
  · obtain rfl := (String.append_right_inj _).mp hkey
    obtain rfl := hdistinct a ha b hb hash hhash hother
    cases hbox.symm.trans hbox'
    exact .inr hissued

/-- A token that is on a desk after a step was there before, or the call has kept it. -/
theorem lookup_of_move
    (hmove : TokenMove (g.cache p) (g.view texts p s answers) c s stage next s') {q : Nat}
    {hash : String} {kept : HeldToken} (hkept : (g.deskIn q s').held.lookup hash = some kept) :
    (g.deskIn q s).held.lookup hash = some kept ∨
      hash = c.hash ∧ ∃ ttl, stage = .keeping kept.token kept.validUntil ttl := by
  cases stage with
  | keeping token validUntil ttl => cases hmove with
    | keep _ _ _ hputs =>
        by_cases hq : q = p
        · subst hq
          have hdesk : g.deskIn q s' = (g.deskIn q s).keep c.hash ⟨token, validUntil⟩ := hputs.desk
          rw [hdesk, TokenDesk.lookup_keep] at hkept
          split at hkept
          · rename_i hhash
            cases hkept
            exact .inr ⟨hhash, ttl, rfl⟩
          · exact .inl hkept
        · rw [others_of_follows hputs.toFollows hq] at hkept
          exact .inl hkept
  | _ =>
      rw [held_of_move hmove nofun] at hkept
      exact .inl hkept

/-- A text that is in the store after a step was there before, or the call has written it. -/
theorem text_of_move (hg : g.Lawful texts)
    (hmove : TokenMove (g.cache p) (g.view texts p s answers) c s stage next s')
    (hwrites : ∀ token ttl, stage = .writing token ttl → g.Writes texts p c token ttl s s')
    {key text : String} {time : Nat} (htext : texts s'.world key time = some text) :
    texts s.world key time = some text ∨
      key = c.key ∧ ∃ token ttl, stage = .writing token ttl ∧
        g.tokenSeal.decrypt text = .ok token := by
  cases stage with
  | writing token ttl =>
      obtain hbefore | ⟨hkey, hbox⟩ := (hwrites token ttl rfl).text_cases hg htext
      · exact .inl hbefore
      · exact .inr ⟨hkey, token, ttl, rfl, hbox⟩
  | _ =>
      rw [texts_of_move hmove nofun] at htext
      exact .inl htext

theorem open?_eq_some {t : TokenCache σ} {text : Option String} :
    t.open? text = some token ↔ ∃ box, text = some box ∧ t.tokenSeal.decrypt box = .ok token := by
  unfold TokenCache.open?
  rw [Option.bind_eq_some_iff]
  refine exists_congr fun box => and_congr_right fun _ => ?_
  cases t.tokenSeal.decrypt box with
  | ok plain => exact ⟨fun h => congrArg Except.ok (Option.some.inj h), fun h => by cases h; rfl⟩
  | error e => exact ⟨nofun, nofun⟩

/-- The answer of the issuer is weighed. -/
theorem stageSound_weighed {reply : Except BrokerError (Option TokenReply)}
    (issuedAt now : Instant) (h : ∀ r token, reply = .ok (some r) → r.token? = some token →
      g.Issued deeds a token) :
    g.StageSound earlier deeds i a (TokenCache.weighed issuedAt now reply) := by
  unfold TokenCache.weighed
  split
  · nofun
  · nofun
  · rename_i r
    split
    · nofun
    · rename_i token htoken
      split
      · exact h r token rfl htoken
      · rintro _ ⟨⟩
        exact .inr (h r token rfl htoken)

/-- What a call knows after a step. -/
theorem Sound.stage_of_move (h : g.Sound texts earlier s₀ w) (hdistinct : g.Distinct)
    (hinherits : g.Inherits texts earlier s₀) (hc : g.call? i = .ok c)
    (hmove : TokenMove (g.cache p) (g.view texts p w.session answers) c w.session (w.stages i) next
      s') :
    g.StageSound earlier (⟨i, w.stages i, w.session, next, s'⟩ :: w.deeds) i c.account next := by
  obtain ⟨haccount, hhash, -⟩ := of_call? hc
  have hbefore := h.stages i c hc
  have hsub : w.deeds ⊆ ⟨i, w.stages i, w.session, next, s'⟩ :: w.deeds := List.subset_cons_self ..
  generalize hstage : w.stages i = before at hmove hbefore hsub ⊢
  cases hmove with
  | read locked hreads =>
      rintro box token rfl hbox
      -- Only a store that answers gives a text.
      cases answers with
      | false =>
          obtain ⟨e, he⟩ := hreads.failure rfl
          cases he
      | true =>
          obtain ⟨time, -, -, hanswer⟩ := hreads.text rfl
          have htext := (Except.ok.inj hanswer).symm
          exact (h.known_of_text hdistinct hinherits haccount hhash htext hbox).mono hsub
  | @hit locked answer token s' hfound hkeeps =>
      have hknown : g.Known earlier w.deeds c.account token := by
        cases answer with
        | ok text =>
            obtain ⟨box, rfl, hbox⟩ := open?_eq_some.mp hfound
            exact hbefore box token rfl hbox
        | error e =>
            obtain ⟨kept, hkept, rfl⟩ := Option.map_eq_some_iff.mp hfound
            have hlookup := (Option.filter_eq_some_iff.mp hkept).1
            exact .inr (h.held _ _ kept hlookup _ haccount hhash)
      cases locked <;> rintro _ ⟨⟩ <;> exact hknown.mono hsub
  | miss locked hfound hkeeps => cases locked <;> trivial
  | join hputs | enter hhead hkeeps | stay hkeeps => trivial
  | ask reply hkeeps => exact ⟨_, List.mem_cons_self, rfl, rfl, rfl⟩
  | weigh issuedAt reply hkeeps =>
      obtain ⟨d, hd, hcall, hask, hreply⟩ := hbefore
      refine stageSound_weighed issuedAt w.session.clock.wall ?_
      rintro r token rfl htoken
      exact ⟨d, hsub hd, c, issuedAt, r, hcall ▸ hc, rfl, hask, hreply, htoken⟩
  | keep token validUntil ttl hputs => exact Issued.mono hbefore hsub
  | write token ttl hfollows hwritten =>
      rintro _ ⟨⟩
      exact .inr (Issued.mono hbefore hsub)
  | release result hputs | stop result => exact fun token hresult => (hbefore token hresult).mono hsub

theorem Sound.act (h : g.Sound texts earlier s₀ w) (hg : g.Lawful texts)
    (hdistinct : g.Distinct) (hinherits : g.Inherits texts earlier s₀) (hc : g.call? i = .ok c) :
    g.Sound texts earlier s₀ (g.act w i c) := by
  obtain ⟨haccount, hhash, -⟩ := of_call? hc
  obtain ⟨⟨answers, hmove⟩, hwrites⟩ := hg.move (g.process i) c (w.stages i) w.session
  have hsub := deeds_subset_act (g := g) w i c
  have hown := h.stages i c hc
  constructor
  case stages =>
    intro j c' hc'
    by_cases hji : j = i
    · subst hji
      cases hc.symm.trans hc'
      rw [stages_act_self]
      exact h.stage_of_move hdistinct hinherits hc hmove
    · rw [stages_act_of_ne hji]
      exact (h.stages j c' hc').mono hsub
  case held =>
    intro p hash kept hkept b hb hhash'
    obtain hbefore | ⟨rfl, ttl, hkeeping⟩ := lookup_of_move hmove hkept
    · exact (h.held p hash kept hbefore b hb hhash').mono hsub
    · -- The account of the call is the one of the hash.
      obtain rfl := hdistinct c.account haccount b hb c.hash hhash hhash'
      rw [hkeeping] at hown
      exact Issued.mono hown hsub
  case stored =>
    intro key time text htext
    obtain hbefore | ⟨hkey, token, ttl, hwriting, hbox⟩ := text_of_move hg hmove hwrites htext
    · obtain hstart | ⟨b, hb, hash, token, hhash', hkey, hbox, hissued⟩ :=
        h.stored key time text hbefore
      · exact .inl hstart
      · exact .inr ⟨b, hb, hash, token, hhash', hkey, hbox, hissued.mono hsub⟩
    · rw [hwriting] at hown
      exact .inr ⟨c.account, haccount, c.hash, token, hhash, hkey, hbox, Issued.mono hown hsub⟩

theorem Sound.step (h : g.Sound texts earlier s₀ w) (hg : g.Lawful texts)
    (hdistinct : g.Distinct) (hinherits : g.Inherits texts earlier s₀)
    (hstep : TeamStep g texts w w') : g.Sound texts earlier s₀ w' := by
  cases hstep with
  | act i hc => exact h.act hg hdistinct hinherits hc
  | other hother =>
      constructor
      case stages => exact h.stages
      case held =>
        intro p hash kept hkept
        dsimp only at hkept
        rw [hother.desks] at hkept
        exact h.held p hash kept hkept
      case stored =>
        intro key time text htext
        dsimp only at htext
        rw [hother.texts] at htext
        exact h.stored key time text htext

theorem sound_start (hempty : ∀ p, g.deskIn p s = .empty) :
    g.Sound texts earlier s (g.start s) := by
  constructor
  case stages =>
    intro i c hc
    simp [start, hc, StageSound]
  case held =>
    intro p hash kept hkept
    change (g.deskIn p s).held.lookup hash = some kept at hkept
    rw [hempty] at hkept
    cases hkept
  case stored => exact fun key time text htext => .inl htext

/-! ### Tokens stay with their accounts -/

/-- What holds of tokens and accounts at any time. -/
structure KeepsApart (g : TokenTeam σ) (texts : σ → String → Nat → Option String)
    (earlier : Account → String → Prop) (s₀ : Session σ) (w : TokenTraffic σ) : Prop where
  /-- A token with which a call ends was issued for its account, and is not blank. -/
  result : ∀ i c token, g.call? i = .ok c → w.stages i = .done (.ok token) →
    (earlier c.account token ∨ g.Issued w.deeds c.account token) ∧ Text.isBlankText token = false
  /-- A text in the store was there at the beginning, or it is a token, sealed, under the hash of the
  account for which it was issued. -/
  stored : ∀ key time text, texts w.session.world key time = some text →
    texts s₀.world key time = some text ∨ g.Sealed w.deeds key text
  /-- A token on the desk of a process was issued for the account of its hash. -/
  held : ∀ p hash kept, (g.deskIn p w.session).held.lookup hash = some kept →
    ∀ a ∈ g.config.accounts, g.hasher.hash a.number = .ok hash → g.Issued w.deeds a kept.token
  /-- A call that has failed has changed neither the store nor what the processes keep, … -/
  failed : ∀ i e, w.stages i = .done (.error e) → ∀ d ∈ w.deeds, d.call = i → g.TidyDeed texts d
  /-- … and is at no lock any more. -/
  unlocked : ∀ i result, w.stages i = .done result → ∀ p hash,
    i ∉ (g.deskIn p w.session).locks.queue hash

/-- **Tokens stay with their accounts.** However calls in any number of processes are interleaved, and
however often the store and the issuer fail: if the hashes of the accounts are distinct, and what the
store has for an account at the beginning was issued for it, no call gets the token of another
account, and none is stored under its hash. A call that has no company is one of these runs. -/
theorem keepsApart_of_leads (hg : g.Lawful texts) (hdistinct : g.Distinct)
    (hempty : ∀ p, g.deskIn p s = .empty) (hinherits : g.Inherits texts earlier s)
    (hleads : g.Leads texts (g.start s) w) :
    g.KeepsApart texts earlier s w ∧
      ∀ (i : Nat) (c : TokenCall) (limit : Nat) (w₁ : TokenTraffic σ), g.call? i = .ok c →
        ∃ w₂, g.Leads texts w₁ w₂ ∧ (w₂.stages i, w₂.session) =
          Act.exec ((g.cache (g.process i)).finish c limit (w₁.stages i)) w₁.session := by
  have hinvariant : g.Sound texts earlier s w ∧ g.Tidy texts w ∧ g.InLine w := by
    induction hleads with
    | refl => exact ⟨sound_start hempty, tidy_start s, inLine_start hempty⟩
    | tail _ hstep ih =>
        obtain ⟨hsound, htidy, hline⟩ := ih
        exact ⟨hsound.step hg hdistinct hinherits hstep, htidy.step hg hstep,
          hline.step hg hstep⟩
  obtain ⟨hsound, htidy, hline⟩ := hinvariant
  refine ⟨?_, fun i c limit w₁ hc => leads_finish texts hc limit w₁⟩
  constructor
  case result =>
    intro i c token hc hdone
    have hstage := hsound.stages i c hc
    rw [hdone] at hstage
    have hknown := hstage token rfl
    exact ⟨hknown.imp_left And.left, hknown.not_blank⟩
  case stored => exact hsound.stored
  case held => exact hsound.held
  case failed => exact fun i e hdone => htidy i (by rw [hdone]; rfl)
  case unlocked => exact fun i result hdone => hline.not_mem hdone

end TokenTeam

/-! ### Two processes, step by step -/

namespace TwoProcesses

def main : Account := ⟨"main", "12345678-01", "key", "secret"⟩

def savings : Account := ⟨"savings", "87654321-01", "key", "secret"⟩

theorem length_key : (List.replicate 32 (7 : UInt8)).length = 32 := rfl

def tokenSeal : TokenSeal := ⟨List.replicate 32 7, length_key⟩

/-- The only answer of the issuer. -/
def reply : TokenReply := ⟨some "token", none, some "Bearer", some 86400⟩

/-- The token of the savings, sealed. -/
def box : String := Base64.text ((Nonce.ofBytes []).bytes ++
  Gcm.sealed tokenSeal.key (Nonce.ofBytes []).bytes (Text.bytes "saved"))

/-- Two calls by the names of the accounts, one in each process; one for prices in the second process;
and one for an account that nobody knows. -/
def team : TokenTeam TeamWorld :=
  TeamWorld.team (.ofAccounts .real [main, savings]) tokenSeal ⟨List.replicate 32 9⟩ (· % 2) fun i =>
    match i with
    | 0 => .named "main"
    | 1 => .named "savings"
    | 2 => .named "nobody"
    | _ => .forPrices

/-- The store has a text that cannot be opened for one account and a token for the other. -/
def session : Session TeamWorld :=
  ⟨⟨⟨[⟨"kis:token:5c1a30535187008c", "?", 0, none⟩, ⟨"kis:token:6b55714afa20886a", box, 0, none⟩],
      false, false⟩, ⟨[(main.number, [.ok (some reply)])], []⟩, fun _ => .empty⟩,
    ⟨⟨1700000000, 0⟩, 0⟩, []⟩

/-- A call goes on, if its reference means an account. -/
def goOn (w : TokenTraffic TeamWorld) (i : Nat) : TokenTraffic TeamWorld :=
  match team.call? i with
  | .ok c => team.act w i c
  | .error _ => w

def run : TokenTraffic TeamWorld :=
  [0, 1, 0, 1, 0, 0, 0, 0, 0, 0, 0, 0, 0, 3, 3].foldl goOn (team.start session)

/-- Nothing that a call does takes any time. -/
theorem leadsStill_foldl (calls : List Nat) (w : TokenTraffic TeamWorld) :
    team.LeadsStill TeamWorld.texts w (calls.foldl goOn w) := by
  induction calls generalizing w with
  | nil => exact .refl
  | cons i rest ih =>
      change team.LeadsStill TeamWorld.texts w (rest.foldl goOn (goOn w i))
      have hrest := ih (goOn w i)
      unfold goOn at hrest ⊢
      cases hcall : team.call? i with
      | error e =>
          rw [hcall] at hrest
          exact hrest
      | ok c =>
          rw [hcall] at hrest
          have hclock : (team.act w i c).session.clock = w.session.clock :=
            (TeamWorld.prompt_cache _ _ _ _ _ (team.process i)).clock_step c (w.stages i) w.session
          exact .head (.act i hcall hclock) hrest

theorem hash_main : team.hasher.hash main.number = .ok "5c1a30535187008c" := by decide +kernel

theorem hash_savings : team.hasher.hash savings.number = .ok "6b55714afa20886a" := by decide +kernel

theorem eq_of_mem {a : Account} (h : a ∈ team.config.accounts) : a = main ∨ a = savings := by
  simpa [team, TeamWorld.team, BrokerConfig.ofAccounts] using h

theorem distinct : team.Distinct := by
  intro a ha b hb hash hhash hhash'
  obtain rfl | rfl := eq_of_mem ha <;> obtain rfl | rfl := eq_of_mem hb
  · rfl
  · simpa using (hash_main.symm.trans hhash).trans (hhash'.symm.trans hash_savings)
  · simpa using (hash_savings.symm.trans hhash).trans (hhash'.symm.trans hash_main)
  · rfl

/-- The token of the savings was issued earlier. -/
def Earlier (a : Account) (token : String) : Prop := a = savings ∧ token = "saved"

theorem inherits : team.Inherits TeamWorld.texts Earlier session := by
  intro a ha hash hhash time text token htext hopen
  obtain rfl | rfl := eq_of_mem ha
  · cases hash_main.symm.trans hhash
    obtain rfl : "?" = text := Option.some.inj htext
    have hfails : (tokenSeal.decrypt "?").toOption = none := by decide +kernel
    rw [show tokenSeal.decrypt "?" = .ok token from hopen] at hfails
    cases hfails
  · cases hash_savings.symm.trans hhash
    obtain rfl : box = text := Option.some.inj htext
    have hbox : tokenSeal.encrypt (.ofBytes []) "saved" = .ok box := rfl
    cases (TokenSeal.decrypt_of_encrypt hbox).symm.trans hopen
    exact ⟨⟨rfl, rfl⟩, by decide⟩

/-- A token that was issued in one process is given out in another, and to nobody else. -/
theorem keepsApart_run : team.KeepsApart TeamWorld.texts Earlier session run :=
  (TokenTeam.keepsApart_of_leads (TeamWorld.lawful_team ..) distinct (fun _ => rfl) inherits
    (TokenTeam.leads_of_still (leadsStill_foldl _ _))).1

end TwoProcesses

end DailyBars
