import DailyBars.Program.Collector
import DailyBars.Proofs.Broker.Credentials
import DailyBars.Proofs.Broker.PricePages
import DailyBars.Proofs.Broker.TokenOwners
import DailyBars.Proofs.Rehearsal.Masked

/-!
# Credentials are shown only behind their masks

Two runs of the same calls for tokens and prices are followed side by side, in which the accounts, keys
and tokens are not the same but look so behind their masks. Each call goes through the same stages on
both sides, and a stage holds the same on both sides but for the token that it carries. So the events
that everybody is shown are the same, and so are the failures that the calls end with.
-/

namespace DailyBars

variable {σ σ' : Type} {W : σ → σ' → Prop} {x : BrokerAccess σ} {y : BrokerAccess σ'}

/-! ### Desks -/

namespace TokenDesk.Alike

variable {d e : TokenDesk} {h k : String}

/-- The token that may still be served is alike. -/
theorem servable? {P : String → String → Prop} (hdesks : d.Alike P e) (hpair : P h k)
    (now : Instant) : Option.Rel TokensAlike (d.servable? h now) (e.servable? k now) := by
  have hheld := hdesks.held h k hpair
  unfold TokenDesk.servable?
  generalize d.held.lookup h = t, e.held.lookup k = u at hheld
  cases hheld with
  | none => exact .none
  | some htu =>
      obtain ⟨htoken, huntil⟩ := htu
      rw [Option.filter_some, Option.filter_some, huntil]
      split
      · exact .some htoken
      · exact .none

theorem keep (same : x.SameConfig y) (hdesks : d.Alike (x.Paired y) e) (hpair : x.Paired y h k)
    {t u : HeldToken} (htoken : TokensAlike t.token u.token) (huntil : t.validUntil = u.validUntil) :
    (d.keep h t).Alike (x.Paired y) (e.keep k u) := by
  refine ⟨fun h' k' hpair' => ?_, hdesks.queue⟩
  rw [lookup_keep, lookup_keep]
  by_cases hsame : h' = h
  · rw [if_pos hsame, if_pos ((same.paired_iff hpair' hpair).mp hsame)]
    exact .some ⟨htoken, huntil⟩
  · rw [if_neg hsame, if_neg (hsame ∘ (same.paired_iff hpair' hpair).mpr)]
    exact hdesks.held h' k' hpair'

theorem setQueue (same : x.SameConfig y) (hdesks : d.Alike (x.Paired y) e)
    (hpair : x.Paired y h k) (callers : List Nat) :
    TokenDesk.Alike (x.Paired y) { d with locks := d.locks.setQueue h callers }
      { e with locks := e.locks.setQueue k callers } := by
  refine ⟨hdesks.held, fun h' k' hpair' => ?_⟩
  dsimp only
  rw [AccountLocks.queue_setQueue, AccountLocks.queue_setQueue]
  by_cases hsame : h' = h
  · rw [if_pos hsame, if_pos ((same.paired_iff hpair' hpair).mp hsame)]
  · rw [if_neg hsame, if_neg (hsame ∘ (same.paired_iff hpair' hpair).mpr)]
    exact hdesks.queue h' k' hpair'

end TokenDesk.Alike

/-! ### Calls and their stages -/

/-- Two calls for the accounts at the same place. -/
structure TokenCall.Alike (x : BrokerAccess σ) (y : BrokerAccess σ') (c d : TokenCall) : Prop where
  place : ∃ n : Nat, x.config.accounts[n]? = some c.account ∧ y.config.accounts[n]? = some d.account
  hash : x.hasher.hash c.account.number = .ok c.hash
  hash' : y.hasher.hash d.account.number = .ok d.hash
  caller : c.caller = d.caller

namespace TokenCall.Alike

variable {c d : TokenCall}

theorem paired (h : TokenCall.Alike x y c d) : x.Paired y c.hash d.hash := by
  obtain ⟨⟨n, hc, hd⟩, hhash, hhash', -⟩ := h
  exact ⟨n, c.account, d.account, hc, hd, hhash, hhash'⟩

theorem account (h : TokenCall.Alike x y c d) (same : x.SameConfig y) :
    c.account.Alike d.account := by
  obtain ⟨⟨n, hc, hd⟩, -, -, -⟩ := h
  exact same.account hc hd

end TokenCall.Alike

/-- Stages that are the same but for the tokens in them. -/
inductive TokenStage.Alike (tokenSeal : TokenSeal) : TokenStage → TokenStage → Prop where
  | reading (locked : Bool) : TokenStage.Alike tokenSeal (.reading locked) (.reading locked)
  | judging (locked : Bool) {r r' : Except StorageError (Option String)} :
      SameEnd (Option.Rel (BoxesAlike tokenSeal)) r r' →
      TokenStage.Alike tokenSeal (.judging locked r) (.judging locked r')
  | joining : TokenStage.Alike tokenSeal .joining .joining
  | waiting : TokenStage.Alike tokenSeal .waiting .waiting
  | issuing : TokenStage.Alike tokenSeal .issuing .issuing
  | weighing (issuedAt : Instant) {r r' : Except BrokerError (Option TokenReply)} :
      SameEnd (Option.Rel TokenReply.Alike) r r' →
      TokenStage.Alike tokenSeal (.weighing issuedAt r) (.weighing issuedAt r')
  | keeping {s t : String} (validUntil : Instant) (ttl : Nat) : TokensAlike s t →
      TokenStage.Alike tokenSeal (.keeping s validUntil ttl) (.keeping t validUntil ttl)
  | writing {s t : String} (ttl : Nat) : TokensAlike s t →
      TokenStage.Alike tokenSeal (.writing s ttl) (.writing t ttl)
  | releasing {r r' : Except BrokerError String} : SameEnd TokensAlike r r' →
      TokenStage.Alike tokenSeal (.releasing r) (.releasing r')
  | done {r r' : Except BrokerError String} : SameEnd TokensAlike r r' →
      TokenStage.Alike tokenSeal (.done r) (.done r')

namespace BrokerAccess

variable {c d : TokenCall}

/-- What an answer of the store gives is alike: boxes that cannot be opened are the same box. -/
theorem judge_alike (same : x.SameConfig y) (outside : SameOutside W x y)
    (hcd : TokenCall.Alike x y c d) {r r' : Except StorageError (Option String)}
    (hr : SameEnd (Option.Rel (BoxesAlike x.tokenSeal)) r r') :
    Act.Alike W (Option.Rel TokensAlike) (x.tokens.judge c r) (y.tokens.judge d r') := by
  cases hr with
  | error e =>
      -- The store does not answer, and the tokens on the desks stand in for it.
      refine (Act.Alike.emit _ _ _ _).bind fun _ _ _ => Act.Alike.now.bind ?_
      rintro now _ rfl
      refine Act.Alike.onPart fun w v hw => ?_
      have hdesks := outside.desk w v hw
      exact ⟨hdesks.servable? hcd.paired now, outside.setDesk w v _ _ hw hdesks⟩
  | ok hbox =>
      cases hbox with
      | none => exact .pure .none
      | @some box box' hbox =>
          have hopen : SameEnd TokensAlike (x.tokens.tokenSeal.decrypt box)
              (y.tokens.tokenSeal.decrypt box') := by
            change SameEnd _ (x.tokenSeal.decrypt box) (y.tokenSeal.decrypt box')
            rw [← same.tokenSeal]
            obtain rfl | ⟨s, t, hs, ht, hst⟩ := hbox
            · exact .refl .refl _
            · rw [hs, ht]
              exact .ok hst
          unfold TokenCache.judge
          dsimp only
          generalize x.tokens.tokenSeal.decrypt box = s, y.tokens.tokenSeal.decrypt box' = t at hopen
          cases hopen with
          | ok hst => exact .pure (.some hst)
          | error e => exact (Act.Alike.emit _ _ _ _).bind fun _ _ _ => .pure .none

/-- Whether a token can be sealed does not tell which it is. -/
theorem encrypt_alike (tokenSeal : TokenSeal) (nonce nonce' : Nonce) {s t : String}
    (hst : TokensAlike s t) :
    SameEnd (BoxesAlike tokenSeal) (tokenSeal.encrypt nonce s) (tokenSeal.encrypt nonce' t) := by
  have hsealed {s t : String} (hst : TokensAlike s t) (hs : s.isEmpty = false)
      (ht : t.isEmpty = false) :
      SameEnd (BoxesAlike tokenSeal) (tokenSeal.encrypt nonce s) (tokenSeal.encrypt nonce' t) := by
    obtain ⟨box, hbox, hopen⟩ := tokenSeal.exists_encrypt nonce hs
    obtain ⟨box', hbox', hopen'⟩ := tokenSeal.exists_encrypt nonce' ht
    rw [hbox, hbox']
    exact .ok (.inr ⟨s, t, hopen, hopen', hst⟩)
  -- An empty text is all that cannot be sealed, and tokens that are not the same are not empty.
  obtain rfl | ⟨hs, ht⟩ := hst.eq_or_ne_empty
  · cases hempty : s.isEmpty with
    | false => exact hsealed hst hempty hempty
    | true =>
        rw [TokenSeal.encrypt, TokenSeal.encrypt, if_pos hempty, if_pos hempty]
        exact .error _
  · exact hsealed hst hs ht

theorem write_alike (same : x.SameConfig y) (outside : SameOutside W x y)
    (hcd : TokenCall.Alike x y c d) {s t : String} (hst : TokensAlike s t) (ttl : Nat) :
    Act.Alike W (fun _ _ => True) (x.tokens.write c s ttl) (y.tokens.write d t ttl) := by
  refine outside.freshNonce.bind fun nonce nonce' _ => ?_
  have hbox : SameEnd (BoxesAlike x.tokenSeal) (x.tokens.tokenSeal.encrypt nonce s)
      (y.tokens.tokenSeal.encrypt nonce' t) := by
    change SameEnd _ (x.tokenSeal.encrypt nonce s) (y.tokenSeal.encrypt nonce' t)
    rw [← same.tokenSeal]
    exact encrypt_alike x.tokenSeal nonce nonce' hst
  generalize x.tokens.tokenSeal.encrypt nonce s = r, y.tokens.tokenSeal.encrypt nonce' t = r' at hbox
  cases hbox with
  | error e => exact .emit _ _ _ _
  | ok hbox =>
      refine Act.Alike.bind (outside.set _ _ _ _ ttl hcd.paired hbox) fun r r' hr => ?_
      cases hr with
      | ok _ => exact .emit _ _ _ _
      | error e => exact .emit _ _ _ _

theorem weigh_alike (hcd : c.account.Alike d.account) (issuedAt : Instant)
    {r r' : Except BrokerError (Option TokenReply)}
    (hr : SameEnd (Option.Rel TokenReply.Alike) r r') :
    Act.Alike W (TokenStage.Alike x.tokenSeal) (TokenCache.weigh c issuedAt r)
      (TokenCache.weigh d issuedAt r') := by
  cases hr with
  | error e => exact .pure (.releasing (.error e))
  | ok hreply =>
      cases hreply with
      | none => exact .pure (.releasing (.error _))
      | @some reply reply' hreply =>
          -- How long a reply is served does not depend on its token.
          have htoken := hreply.token?
          have huntil : reply.servedUntil? issuedAt = reply'.servedUntil? issuedAt := by
            unfold TokenReply.servedUntil? TokenReply.expiresAt?
            rw [hreply.expiry, hreply.lifetime]
          unfold TokenCache.weigh
          dsimp only
          generalize reply.token? = s, reply'.token? = t at htoken
          cases htoken with
          | none => exact .pure (.releasing (.error _))
          | some hst =>
              refine Act.Alike.now.bind ?_
              rintro now _ rfl
              rw [huntil, hreply.expiry, hcd.number.mask_eq]
              split
              · exact .pure (.keeping _ _ hst)
              · exact (Act.Alike.emit _ _ _ _).bind fun _ _ _ => .pure (.releasing (.ok hst))

/-- The issuer's answer is alike, and so is what is said about it. -/
theorem issue_alike (same : x.SameConfig y) (outside : SameOutside W x y)
    (hcd : TokenCall.Alike x y c d) :
    Attempt.Alike W (Option.Rel TokenReply.Alike) (x.tokens.issuer c.account)
      (y.tokens.issuer d.account) := by
  obtain ⟨n, hc, hd⟩ := hcd.place
  have haccount := same.account hc hd
  change Attempt.Alike W _ (TokenIssuer.atServer x.http x.config.baseUrl c.account)
    (TokenIssuer.atServer y.http y.config.baseUrl d.account)
  unfold TokenIssuer.atServer
  rw [haccount.number.mask_eq, haccount.appKey.mask_eq]
  refine (Attempt.Alike.ofAct (.emit _ _ _ _)).bind fun _ _ _ => ?_
  refine ((outside.issue n _ _ hc hd).orElseAs _).bind fun r q hrq => ?_
  obtain ⟨hstatus, htext⟩ := hrq
  have hsuccess : q.isSuccess = r.isSuccess := by rw [HttpResponse.isSuccess, ← hstatus]; rfl
  rw [hsuccess]
  cases hcase : r.isSuccess with
  | true =>
      rw [hcase] at htext
      rw [if_pos rfl, if_pos rfl]
      refine (Attempt.Alike.ofResult (TokenReply.ofText_alike htext)).bind fun reply reply' h => ?_
      cases h with
      | none => exact .pure .none
      | @some reply reply' h =>
          have htoken := h.token?
          rw [Option.bind_some, Option.bind_some]
          generalize reply.token? = s, reply'.token? = t at htoken
          cases htoken with
          | none => exact .pure (.some h)
          | some hst =>
              dsimp only
              rw [hst.mask_eq, h.expiry]
              exact (Attempt.Alike.ofAct (.emit _ _ _ _)).bind fun _ _ _ => .pure (.some h)
  | false =>
      rw [hcase] at htext
      rw [if_neg Bool.false_ne_true, if_neg Bool.false_ne_true, BrokerError.ofRefusal_eq hstatus htext,
        HttpResponse.statusText, HttpResponse.statusText, hstatus]
      exact (Attempt.Alike.ofAct (.emit _ _ _ _)).bind fun _ _ _ => .throw _

/-- **One step of a call** leads to stages that are alike. -/
theorem step_alike (same : x.SameConfig y) (outside : SameOutside W x y)
    (hcd : TokenCall.Alike x y c d) {stage stage' : TokenStage}
    (hstage : TokenStage.Alike x.tokenSeal stage stage') :
    Act.Alike W (TokenStage.Alike x.tokenSeal) (x.tokens.step c stage)
      (y.tokens.step d stage') := by
  have onDesk {α : Type} {f g : TokenDesk → α × TokenDesk}
      (hfg : ∀ a b, TokenDesk.Alike (x.Paired y) a b →
        (f a).1 = (g b).1 ∧ TokenDesk.Alike (x.Paired y) (f a).2 (g b).2) :
      Act.Alike W (fun a b => a = b) (Act.onPart x.desk f) (Act.onPart y.desk g) := by
    refine Act.Alike.onPart fun w v hw => ?_
    obtain ⟨hresult, hdesks⟩ := hfg _ _ (outside.desk w v hw)
    exact ⟨hresult, outside.setDesk w v _ _ hw hdesks⟩
  -- The desks differ in the tokens only, so a step finds the same line on both.
  cases hstage with
  | reading locked =>
      exact Act.Alike.bind (outside.get _ _ hcd.paired) fun _ _ hr => .pure (.judging locked hr)
  | judging locked hr =>
      refine (judge_alike same outside hcd hr).bind fun s t hst => ?_
      cases hst with
      | none =>
          cases locked with
          | true => exact .pure .issuing
          | false => exact .pure .joining
      | some hst =>
          cases locked with
          | true => exact Act.Alike.emit_debug.bind fun _ _ _ => .pure (.releasing (.ok hst))
          | false => exact .pure (.done (.ok hst))
  | joining =>
      refine Act.Alike.bind (onDesk fun a b hab => ⟨rfl, ?_⟩) fun _ _ _ => .pure .waiting
      rw [hcd.caller, AccountLocks.join, AccountLocks.join, hab.queue _ _ hcd.paired]
      exact hab.setQueue same hcd.paired _
  | waiting =>
      refine Act.Alike.bind (onDesk fun a b hab => ⟨?_, hab⟩) ?_
      · exact congrArg List.head? (hab.queue _ _ hcd.paired)
      · rintro holder _ rfl
        rw [hcd.caller]
        split
        · exact .pure (.reading true)
        · exact .pure .waiting
  | issuing =>
      refine Act.Alike.now.bind ?_
      rintro now _ rfl
      exact Act.Alike.bind (issue_alike same outside hcd) fun _ _ hr => .pure (.weighing now hr)
  | weighing issuedAt hr => exact weigh_alike (hcd.account same) issuedAt hr
  | keeping validUntil ttl hst =>
      refine Act.Alike.bind (onDesk fun a b hab => ⟨rfl, ?_⟩) fun _ _ _ => .pure (.writing ttl hst)
      exact hab.keep same hcd.paired hst rfl
  | writing ttl hst =>
      exact (write_alike same outside hcd hst ttl).bind fun _ _ _ => .pure (.releasing (.ok hst))
  | releasing hr =>
      refine Act.Alike.bind (onDesk fun a b hab => ⟨rfl, ?_⟩) fun _ _ _ => .pure (.done hr)
      rw [AccountLocks.release, AccountLocks.release, hab.queue _ _ hcd.paired]
      exact hab.setQueue same hcd.paired _
  | done hr => exact .pure (.done hr)

theorem finish_alike (same : x.SameConfig y) (outside : SameOutside W x y)
    (hcd : TokenCall.Alike x y c d) (n : Nat) {stage stage' : TokenStage}
    (hstage : TokenStage.Alike x.tokenSeal stage stage') :
    Act.Alike W (TokenStage.Alike x.tokenSeal) (x.tokens.finish c n stage)
      (y.tokens.finish d n stage') := by
  induction n generalizing stage stage' with
  | zero => cases hstage <;> exact .pure (by constructor <;> assumption)
  | succ n ih =>
      have hgoOn : Act.Alike W (TokenStage.Alike x.tokenSeal)
          (x.tokens.step c stage >>= x.tokens.finish c n)
          (y.tokens.step d stage' >>= y.tokens.finish d n) :=
        (step_alike same outside hcd hstage).bind fun _ _ h => ih h
      cases hstage with
      | done hr => exact .pure (.done hr)
      | _ => exact hgoOn

/-- **A call for a token** ends alike on both sides. -/
theorem answer_alike (same : x.SameConfig y) (outside : SameOutside W x y)
    (hcd : TokenCall.Alike x y c d) :
    Attempt.Alike W TokensAlike (x.tokens.answer c) (y.tokens.answer d) := by
  refine Act.Alike.bind (finish_alike same outside hcd _ (.reading false)) fun _ _ hstage => ?_
  cases hstage with
  | done hr => exact .pure hr
  | _ => exact .pure (.error _)

/-- There are calls for the accounts at the same place on both sides, or on neither. -/
theorem callOf_alike (same : x.SameConfig y) {n : Nat} {a b : Account}
    (ha : x.config.accounts[n]? = some a) (hb : y.config.accounts[n]? = some b) (caller : Nat) :
    SameEnd (TokenCall.Alike x y) (x.tokens.callOf a caller) (y.tokens.callOf b caller) := by
  have hnumbers := (same.account ha hb).number.isBlankText_eq
  cases hblank : Text.isBlankText a.number with
  | false =>
      obtain ⟨h, hh⟩ := x.hasher.exists_hash_iff.mpr hblank
      obtain ⟨k, hk⟩ := y.hasher.exists_hash_iff.mpr (hnumbers ▸ hblank)
      have hx : x.tokens.callOf a caller = .ok ⟨a, h, caller⟩ := by
        rw [TokenCache.callOf, tokens, hh]
      have hy : y.tokens.callOf b caller = .ok ⟨b, k, caller⟩ := by
        rw [TokenCache.callOf, tokens, hk]
      rw [hx, hy]
      exact .ok ⟨⟨n, ha, hb⟩, hh, hk, rfl⟩
  | true =>
      rw [hblank] at hnumbers
      rw [TokenCache.callOf, TokenCache.callOf, AccountHasher.hash, AccountHasher.hash, hblank,
        ← hnumbers, if_pos rfl, if_pos rfl]
      exact .error _

/-- The calls for the accounts that references mean. -/
theorem call_alike (same : x.SameConfig y) (caller : Nat) {a b : Option Account}
    (missing : BrokerError) : SamePlace x.config.accounts y.config.accounts a b →
    SameEnd (TokenCall.Alike x y)
      (match a with | some a => x.tokens.callOf a caller | none => .error missing)
      (match b with | some b => y.tokens.callOf b caller | none => .error missing) := by
  intro hplace
  cases hplace with
  | nowhere => exact .error _
  | place ha hb => exact callOf_alike same ha hb caller

theorem accessToken_alike (same : x.SameConfig y) (outside : SameOutside W x y)
    {reference reference' : String}
    (hmask : Mask.accountNumber reference = Mask.accountNumber reference')
    (hplace : SamePlace x.config.accounts y.config.accounts (x.config.findAccount? reference)
      (y.config.findAccount? reference')) :
    Attempt.Alike W TokensAlike (x.tokens.accessToken reference)
      (y.tokens.accessToken reference') := by
  have hcall : SameEnd (TokenCall.Alike x y) (x.tokens.callFor reference 0)
      (y.tokens.callFor reference' 0) := by
    unfold TokenCache.callFor
    rw [hmask]
    exact call_alike same 0 _ hplace
  exact (Attempt.Alike.ofResult hcall).bind fun _ _ hcd => answer_alike same outside hcd

theorem defaultToken_alike (same : x.SameConfig y) (outside : SameOutside W x y) :
    Attempt.Alike W TokensAlike x.tokens.defaultToken y.tokens.defaultToken := by
  have hcall : SameEnd (TokenCall.Alike x y) (x.tokens.callForDefault 0)
      (y.tokens.callForDefault 0) :=
    call_alike same 0 _ same.defaultAccount
  exact (Attempt.Alike.ofResult hcall).bind fun _ _ hcd => answer_alike same outside hcd

theorem sleepUntil_alike (time : Nat) :
    Act.Alike W (fun _ _ => True) (Act.sleepUntil (σ := σ) time) (Act.sleepUntil (σ := σ') time) := by
  refine Act.Alike.uptime.bind ?_
  rintro now _ rfl
  split
  · exact .passUntil _
  · exact .pure trivial

theorem acquire_alike (outside : SameOutside W x y) :
    Act.Alike W (fun _ _ => True) (Pacing.acquire x.pacing) (Pacing.acquire y.pacing) := by
  refine Act.Alike.uptime.bind ?_
  rintro now _ rfl
  refine Act.Alike.bind (R := fun a b => a = b) (Act.Alike.onPart fun w v hw => ?_) ?_
  · rw [outside.pacing w v hw]
    exact ⟨rfl, outside.setPacing w v _ hw⟩
  · rintro slot _ rfl
    exact sleepUntil_alike slot

theorem logSkipped_alike (n : Nat) : Act.Alike W (fun _ _ => True)
    (PriceClient.logSkipped (σ := σ) n) (PriceClient.logSkipped (σ := σ') n) := by
  induction n with
  | zero => exact .pure trivial
  | succ n ih => exact Act.Alike.emit_debug.bind fun _ _ _ => ih

/-- The broker answers the same on both sides. -/
theorem ask_alike (same : x.SameConfig y) (outside : SameOutside W x y) (endpoint : Endpoint)
    (key : InstrumentKey) (first last : Date) :
    Attempt.Alike W (fun r q => r = q) (x.client.ask endpoint key first last)
      (y.client.ask endpoint key first last) := by
  have haccount : SameEnd Account.Alike x.client.account y.client.account := by
    have hplace := same.defaultAccount
    change SameEnd _ (match x.config.defaultAccount? with | some a => .ok a | none => .error _)
      (match y.config.defaultAccount? with | some a => .ok a | none => .error _)
    generalize x.config.defaultAccount? = a, y.config.defaultAccount? = b at hplace
    cases hplace with
    | nowhere => exact .error _
    | place ha hb => exact .ok (same.account ha hb)
  unfold PriceClient.ask
  refine (Attempt.Alike.ofResult (SameEnd.refl (fun _ => rfl) _)).bind ?_
  rintro query _ rfl
  refine (Attempt.Alike.ofResult haccount).bind fun a b hab => ?_
  refine (defaultToken_alike same outside).bind fun token token' htoken => ?_
  refine (Attempt.Alike.ofResult (priceHeaders_alike hab htoken _)).bind fun hs hs' _ => ?_
  refine (Attempt.Alike.ofAct (acquire_alike outside)).bind fun _ _ _ => ?_
  exact (outside.ask endpoint.path query hs hs').orElseAs _

/-- The same answer is read in the same way. -/
theorem read_alike (endpoint : Endpoint) (r : HttpResponse) :
    Attempt.Alike W (fun a b => a = b) (PriceClient.read (σ := σ) endpoint r)
      (PriceClient.read (σ := σ') endpoint r) := by
  unfold PriceClient.read
  dsimp only
  split
  on_goal 1 => refine (Attempt.Alike.ofAct (.emit _ _ _ _)).bind fun _ _ _ => ?_
  all_goals
    refine (Attempt.Alike.ofResult (SameEnd.refl (fun _ => rfl) _)).bind ?_
    rintro rows _ rfl
    refine (Attempt.Alike.ofAct (logSkipped_alike _)).bind fun _ _ _ => ?_
    refine (Attempt.Alike.ofResult (SameEnd.refl (fun _ => rfl) _)).bind ?_
    rintro bars _ rfl
    exact (Attempt.Alike.ofAct (.emit _ _ _ _)).bind fun _ _ _ => .pure rfl

theorem prices_alike (same : x.SameConfig y) (outside : SameOutside W x y) (endpoint : Endpoint)
    (key : InstrumentKey) (first last : Date) :
    Attempt.Alike W (fun a b => a = b) (x.client.prices endpoint key first last)
      (y.client.prices endpoint key first last) := by
  rw [PriceClient.prices_eq, PriceClient.prices_eq]
  refine (ask_alike same outside endpoint key first last).bind ?_
  rintro r _ rfl
  exact read_alike endpoint r

end BrokerAccess

/-! ### Sequences of calls -/

/-- What can be asked for. -/
inductive BrokerCall where
  /-- The token of the account that answers to a name or number. -/
  | token (reference : String)
  | prices (endpoint : Endpoint) (key : InstrumentKey) (first last : Date)

/-- What is given for it. -/
inductive BrokerAnswer where
  | token (token : String)
  | bars (bars : List Bar)

/-- The same calls; but references may be different, if they mean the accounts at the same place, or
none, and their masks show the same. -/
inductive BrokerCall.Alike (c c' : BrokerConfig) : BrokerCall → BrokerCall → Prop where
  | token {reference reference' : String} :
      Mask.accountNumber reference = Mask.accountNumber reference' →
      SamePlace c.accounts c'.accounts (c.findAccount? reference) (c'.findAccount? reference') →
      BrokerCall.Alike c c' (.token reference) (.token reference')
  | prices (endpoint : Endpoint) (key : InstrumentKey) (first last : Date) :
      BrokerCall.Alike c c' (.prices endpoint key first last) (.prices endpoint key first last)

/-- The same bars, or tokens of which the mask shows the same. -/
inductive BrokerAnswer.Alike : BrokerAnswer → BrokerAnswer → Prop where
  | token {s t : String} : TokensAlike s t → BrokerAnswer.Alike (.token s) (.token t)
  | bars (bars : List Bar) : BrokerAnswer.Alike (.bars bars) (.bars bars)

namespace BrokerAccess

/-- The way of a collector to the broker. -/
def ofCollector (outside : Outside σ) (redis : RedisCache σ) (config : BrokerConfig)
    (tokenSeal : TokenSeal) (hasher : AccountHasher) : BrokerAccess σ where
  config
  http := outside.http
  store := redis.store
  tokenSeal
  hasher
  desk := outside.desk
  pacing := outside.pacing
  freshNonce := outside.freshNonce

/-- By it the collector gets its prices. -/
theorem client_ofCollector (outside : Outside σ) (redis : RedisCache σ) (config : BrokerConfig)
    (tokenSeal : TokenSeal) (hasher : AccountHasher) :
    (ofCollector outside redis config tokenSeal hasher).client =
      Collector.client outside redis config tokenSeal hasher := rfl

/-- Makes a call. -/
def perform (x : BrokerAccess σ) : BrokerCall → Attempt σ BrokerError BrokerAnswer
  | .token reference => return .token (← x.tokens.accessToken reference)
  | .prices endpoint key first last => return .bars (← x.client.prices endpoint key first last)

/-- Makes calls one after the other, each a number of nanoseconds after the one before it. -/
def performAll (x : BrokerAccess σ) :
    List (Nat × BrokerCall) → Act σ (List (Except BrokerError BrokerAnswer))
  | [] => return []
  | (nanos, call) :: calls => do
    Act.pass nanos
    let answer ← (x.perform call).run
    return answer :: (← x.performAll calls)

theorem perform_alike (same : x.SameConfig y) (outside : SameOutside W x y)
    {call call' : BrokerCall} (hcall : BrokerCall.Alike x.config y.config call call') :
    Attempt.Alike W BrokerAnswer.Alike (x.perform call) (y.perform call') := by
  cases hcall with
  | token hmask hplace =>
      exact (accessToken_alike same outside hmask hplace).bind fun _ _ hst => .pure (.token hst)
  | prices endpoint key first last =>
      refine (prices_alike same outside endpoint key first last).bind ?_
      rintro bars _ rfl
      exact .pure (.bars bars)

/-- **Credentials are shown only behind their masks.** Take two runs of the same calls for tokens and
prices, at the same times, which differ only in account numbers, keys and tokens that look the same
behind their masks. Then every call that fails on one side fails in the same way on the other, and
everybody is shown the same events. The client of a collector is that of such a way to the broker. -/
theorem shows_only_masks (same : x.SameConfig y) (outside : SameOutside W x y)
    {calls calls' : List (Nat × BrokerCall)}
    (hcalls : List.Forall₂ (fun c d => c.1 = d.1 ∧ BrokerCall.Alike x.config y.config c.2 d.2)
      calls calls') {s : Session σ} {t : Session σ'} (hst : Session.Alike W s t) :
    List.Forall₂ (SameEnd BrokerAnswer.Alike) (Act.exec (x.performAll calls) s).1
        (Act.exec (y.performAll calls') t).1 ∧
      shownLog (Act.exec (x.performAll calls) s).2.log =
        shownLog (Act.exec (y.performAll calls') t).2.log ∧
      ∀ (outside : Outside σ) (redis : RedisCache σ) (config : BrokerConfig) (tokenSeal : TokenSeal)
        (hasher : AccountHasher), (ofCollector outside redis config tokenSeal hasher).client =
          Collector.client outside redis config tokenSeal hasher := by
  have hall : Act.Alike W (List.Forall₂ (SameEnd BrokerAnswer.Alike)) (x.performAll calls)
      (y.performAll calls') := by
    clear hst
    induction hcalls with
    | nil => exact .pure .nil
    | @cons c d calls calls' hcall _ ih =>
        obtain ⟨nanos, call⟩ := c
        obtain ⟨nanos', call'⟩ := d
        obtain ⟨rfl, hcall⟩ := hcall
        refine (Act.Alike.pass nanos).bind fun _ _ _ => ?_
        refine Act.Alike.bind (perform_alike same outside hcall) fun _ _ hanswer => ?_
        exact ih.bind fun _ _ hrest => .pure (.cons hanswer hrest)
  obtain ⟨hanswers, hafter⟩ := hall s t hst
  exact ⟨hanswers, hafter.log, client_ofCollector⟩

end BrokerAccess

/-! ### Two clients whose credentials look the same -/

namespace LookAlikes

open TwoProcesses (tokenSeal)

/-- The characters of a reply with a token that ends in a day. -/
def reply (token : String) : List Char :=
  "\x7b\"access_token\":\"".toList ++ token.toList ++ "\",\"expires_in\":86400\x7d".toList

/-- A page without prices. -/
def page : String := "\x7b\"rt_cd\":\"0\",\"output2\":[]\x7d"

def access (accounts : List Account) (token : String) : BrokerAccess ClientWorld :=
  ClientWorld.access (.ofAccounts .real accounts) tokenSeal ⟨List.replicate 32 9⟩
    (ClientWorld.steadyServer (String.ofList (reply token)) page)

def one : BrokerAccess ClientWorld :=
  access [⟨"main", "12345678-01", "PSma1", "first secret"⟩,
    ⟨"savings", "87654321-02", "PSsav1", "second secret"⟩] "eyJ0 first"

def other : BrokerAccess ClientWorld :=
  access [⟨"main", "99995678-01", "PSma22", "third"⟩,
    ⟨"savings", "11114321-02", "PSsav22", "fourth"⟩] "eyJ0 second"

/-- Nothing is kept anywhere. -/
def session : Session ClientWorld :=
  ⟨⟨⟨"", [], []⟩, .empty, .empty, .start 20 0⟩, ⟨⟨1700000000, 0⟩, 0⟩, []⟩

/-- The token of the main account by its name and by its number, prices, and the token of an account
that there is not. -/
def calls (number : String) : List (Nat × BrokerCall) :=
  [(0, .token "main"), (1000000000, .token number),
    (0, .prices .domesticStock ⟨.domesticStock, "A", none⟩ ⟨19790, by decide⟩ ⟨19790, by decide⟩),
    (0, .token "nobody")]

theorem sameConfig : one.SameConfig other where
  baseUrl := by
    simp only [one, other, access, ClientWorld.access, BrokerConfig.baseUrl, BrokerConfig.ofAccounts]
  accounts := by
    have conceals {mask : String → String} {s t : String}
        (h : mask s = mask t ∧ (Text.isBlankText s = false ∧ isHeaderText s) ∧
          Text.isBlankText t = false ∧ isHeaderText t) : Mask.Conceals mask s t :=
      .inr ⟨h.1, ⟨h.2.1.1, h.2.1.2⟩, ⟨h.2.2.1, h.2.2.2⟩⟩
    refine .cons ⟨conceals ?_, conceals ?_, conceals ?_⟩
      (.cons ⟨conceals ?_, conceals ?_, conceals ?_⟩ .nil)
    all_goals decide +kernel
  defaultAccount := .place (n := 0) rfl rfl
  tokenSeal := by simp only [one, other, access, ClientWorld.access]
  distinct := by decide +kernel
  distinct' := by decide +kernel

theorem text_reply (token : String) :
    (⟨200, String.ofList (reply token)⟩ : HttpResponse).text = String.ofList (reply token) := by
  have hhead : (reply token).head? = some '\x7b' := rfl
  refine HttpResponse.text_ofList (by decide) fun hmark => ?_
  cases hhead.symm.trans hmark

theorem answersAlike : AnswersAlike ⟨200, String.ofList (reply "eyJ0 first")⟩
    ⟨200, String.ofList (reply "eyJ0 second")⟩ := by
  refine ⟨rfl, ?_⟩
  have htokens : TokensAlike "eyJ0 first" "eyJ0 second" :=
    .inr ⟨by decide, ⟨by decide, by decide⟩, ⟨by decide, by decide⟩⟩
  have hone : Json.ofText? (String.ofList (reply "eyJ0 first")) = some (.object
      [(some "access_token", .str "eyJ0 first"), (some "expires_in", .nat 86400)]) :=
    (Json.ofText?_ofList _).trans rfl
  have hother : Json.ofText? (String.ofList (reply "eyJ0 second")) = some (.object
      [(some "access_token", .str "eyJ0 second"), (some "expires_in", .nat 86400)]) :=
    (Json.ofText?_ofList _).trans rfl
  rw [text_reply, text_reply]
  exact .object hone hother (.cons (.inr ⟨_, _, htokens, rfl, rfl⟩) (.cons (.inl rfl) .nil))

theorem calls_alike : List.Forall₂
    (fun c d => c.1 = d.1 ∧ BrokerCall.Alike one.config other.config c.2 d.2)
    (calls "12345678-01") (calls "99995678-01") := by
  refine .cons ⟨rfl, .token rfl (.place (n := 0) rfl rfl)⟩
    (.cons ⟨rfl, .token (by decide) (.place (n := 0) rfl rfl)⟩
      (.cons ⟨rfl, .prices _ _ _ _⟩ (.cons ⟨rfl, .token rfl ?_⟩ .nil)))
  exact .nowhere

theorem session_alike :
    Session.Alike (ClientWorld.Alike one other) session session where
  world := ⟨⟨rfl, rfl, fun _ _ _ _ => .none⟩, ⟨fun _ _ _ => .none, fun _ _ _ => rfl⟩, rfl⟩
  clock := rfl
  log := rfl

/-- The two clients show the same of four calls, the one that fails among them. -/
theorem shows_same : one.config.accounts ≠ other.config.accounts ∧
    List.Forall₂ (SameEnd BrokerAnswer.Alike)
      (Act.exec (one.performAll (calls "12345678-01")) session).1
      (Act.exec (other.performAll (calls "99995678-01")) session).1 ∧
    shownLog (Act.exec (one.performAll (calls "12345678-01")) session).2.log =
      shownLog (Act.exec (other.performAll (calls "99995678-01")) session).2.log := by
  obtain ⟨hanswers, hlog, -⟩ := BrokerAccess.shows_only_masks sameConfig
    (ClientWorld.sameOutside_access sameConfig answersAlike) calls_alike session_alike
  exact ⟨by decide, hanswers, hlog⟩

end LookAlikes

end DailyBars
