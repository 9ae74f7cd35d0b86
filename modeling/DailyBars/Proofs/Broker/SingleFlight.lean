import DailyBars.Proofs.Broker.TokenFlight
import DailyBars.Proofs.Rehearsal.Tokens

/-!
# One token for all who ask at once

Calls for the token of one account, in whatever order they take their steps, ask the issuer once if
the store has no token for it and never if it has one, and all of them end with the same token.
-/

namespace DailyBars

variable {σ : Type}

namespace Flight

variable {f : Flight σ} {w : TokenRun σ} {s s' : Session σ} {i : Nat} {stage : TokenStage}
  {token : String}

/-! ### A token in the store -/

/-- What holds of the calls at any time if a token is in the store all along. -/
structure Provided (f : Flight σ) (box token : String) (w : TokenRun σ) : Prop where
  unasked : w.replies = []
  stored : ∀ time, w.session.clock.uptime ≤ time → time ≤ f.limit.uptime →
    f.text w.session time = some box
  stages : ∀ i, w.stages i = .reading false ∨ w.stages i = .judging false (.ok (some box)) ∨
    w.stages i = .done (.ok token)

/-- A call that finds the token in the store leaves everything as it is. -/
theorem Provided.goOn {box : String} (h : f.Provided box token w)
    (hs : f.Undisturbed w.session s')
    (hstage : stage = .reading false ∨ stage = .judging false (.ok (some box)) ∨
      stage = .done (.ok token)) :
    f.Provided box token ⟨s', Function.update w.stages i stage, w.replies⟩ := by
  refine ⟨h.unasked, fun time hfrom hto => ?_, fun j => ?_⟩
  · rw [hs.text]
    exact h.stored time (Nat.le_trans hs.later.uptime_le hfrom) hto
  · by_cases hji : j = i
    · subst hji
      simpa using hstage
    · simpa [hji] using h.stages j

theorem Provided.move {box : String} (h : f.Provided box token w) (hanswers : f.view.answers = true)
    (hbox : f.cache.tokenSeal.decrypt box = .ok token)
    (hmove : TokenMove f.cache f.view (f.call i) w.session (w.stages i) stage s')
    (hlimit : s'.clock.Later f.limit) : f.Provided box token (w.goOn i stage s') := by
  unfold TokenRun.goOn
  rcases h.stages i with hstage | hstage | hstage <;> rw [hstage] at hmove ⊢
  · cases hmove with
    | read locked hreads =>
        obtain ⟨time, hfrom, hto, rfl⟩ := hreads.text hanswers
        have htext : f.view.texts w.session.world (f.call i).key time = some box :=
          h.stored time hfrom (Nat.le_trans hto hlimit.uptime_le)
        rw [htext]
        exact h.goOn (undisturbed_of_puts hreads.keeps rfl) (.inr (.inl rfl))
  · have hopen : f.cache.open? (some box) = some token := by
      rw [TokenCache.open?, Option.bind_some, hbox]
      rfl
    cases hmove with
    | hit locked hfound hkeeps =>
        cases hopen.symm.trans hfound
        exact h.goOn (undisturbed_of_puts hkeeps rfl) (.inr (.inr rfl))
    | miss locked hfound hkeeps => cases hopen.symm.trans hfound
  · cases hmove with
    | stop => exact h.goOn (undisturbed_of_puts (TokenCache.Keeps.refl _) rfl) (.inr (.inr rfl))

end Flight

/-! ### Whole runs -/

namespace TokenRun

variable {t : TokenCache σ} {v : StoreView σ} {calls : Nat → TokenCall}
  {w w' : TokenRun σ}

theorem steady_of_leads (hsep : t.Separate v) (hstore : t.StoreLaw v)
    (h : Leads t calls w w') (hsteady : v.steady w.session.world) : v.steady w'.session.world := by
  induction h with
  | refl => exact hsteady
  | @tail w₁ _ _ hstep ih =>
      cases hstep with
      | pass nanos => exact ih
      | call i =>
          exact (TokenCache.move_step hsep hstore (calls i) (w₁.stages i) w₁.session ih).steady ih

/-- A step takes time, and the answers of the issuer stay as they are. -/
theorem grows_of_step (hsep : t.Separate v) (hstore : t.StoreLaw v)
    (hsteady : v.steady w.session.world) (h : TokenStep t calls w w') :
    w.session.clock.Later w'.session.clock ∧ ∀ x ∈ w.replies, x ∈ w'.replies := by
  cases h with
  | pass nanos => exact ⟨Clock.later_advance _ nanos, fun _ hx => hx⟩
  | call i =>
      exact ⟨(TokenCache.move_step hsep hstore (calls i) (w.stages i) w.session hsteady).later,
        fun x hx => List.mem_append_right _ hx⟩

end TokenRun

namespace Flight

variable {f : Flight σ} {w w' : TokenRun σ} {s : Session σ}

theorem sound_start (hdesk : f.desk s = .empty) (hregular : s.clock.wall.Regular)
    (hstored : f.view.answers = true → f.cache.StoreAnswers f.view ∧
      f.cache.open? (f.text s s.clock.uptime) = none) : f.Sound (.start s) := by
  refine ⟨?_, hregular, Nat.zero_le _, fun _ => trivial, ?_, ?_, fun hasked => absurd rfl hasked⟩
  · change Line ((f.desk s).locks.queue f.hash) _
    rw [hdesk]
    exact Line.start
  · intro kept hkept
    change (f.desk s).held.lookup f.hash = some kept at hkept
    rw [hdesk] at hkept
    cases hkept
  · intro hanswers time hfrom _ token htoken
    obtain ⟨hstore, hopen⟩ := hstored hanswers
    -- The text that cannot be opened stays or goes; no other takes its place.
    rcases hstore.fades s.world ("kis:token:" ++ f.hash) s.clock.uptime time hfrom with hsame | hgone
    · have hsame : f.text s time = f.text s s.clock.uptime := hsame
      cases hopen.symm.trans (hsame ▸ htoken)
    · have hgone : f.text s time = none := hgone
      cases hgone ▸ htoken

/-- The invariant holds all along a run. -/
theorem sound_of_leads (hsep : f.cache.Separate f.view) (hstore : f.cache.StoreLaw f.view)
    (hsteady : f.view.steady s.world) (hstart : f.Sound (.start s))
    (h : TokenRun.Leads f.cache f.call (.start s) w) (hlimit : w.session.clock.Later f.limit)
    (hgave : ∀ x ∈ w.replies, GaveUntil f.limit.wall x) : f.Sound w := by
  induction h with
  | refl => exact hstart
  | @tail w₁ _ hbefore hstep ih =>
      have hs := TokenRun.steady_of_leads hsep hstore hbefore hsteady
      obtain ⟨hlater, hreplies⟩ := TokenRun.grows_of_step hsep hstore hs hstep
      have hsound := ih (hlater.trans hlimit) fun x hx => hgave x (hreplies x hx)
      cases hstep with
      | pass nanos => exact hsound.pass nanos
      | call i =>
          exact hsound.move (TokenCache.move_step hsep hstore (f.call i) _ _ hs) hlimit
            fun x hx => hgave x (hreplies x hx)

theorem provided_of_leads {box token : String} (hsep : f.cache.Separate f.view)
    (hstore : f.cache.StoreLaw f.view) (hsteady : f.view.steady s.world)
    (hanswers : f.view.answers = true) (hbox : f.cache.tokenSeal.decrypt box = .ok token)
    (hstart : f.Provided box token (.start s)) (h : TokenRun.Leads f.cache f.call (.start s) w)
    (hlimit : w.session.clock.Later f.limit) : f.Provided box token w := by
  induction h with
  | refl => exact hstart
  | @tail w₁ _ hbefore hstep ih =>
      have hs := TokenRun.steady_of_leads hsep hstore hbefore hsteady
      have hlater := (TokenRun.grows_of_step hsep hstore hs hstep).1
      have hprovided := ih (hlater.trans hlimit)
      cases hstep with
      | pass nanos =>
          refine ⟨hprovided.unasked, fun time hfrom hto => ?_, hprovided.stages⟩
          exact hprovided.stored time (Nat.le_trans hlater.uptime_le hfrom) hto
      | call i =>
          exact hprovided.move hanswers hbox (TokenCache.move_step hsep hstore (f.call i) _ _ hs)
            hlimit

end Flight

/-! ### One token for all -/

/-- The token that a store has for a key from the beginning of a run to its end, if it has one. -/
inductive TokenCache.Finds (t : TokenCache σ) (v : StoreView σ) (key : String) (s : Session σ)
    (limit : Clock) : Option String → Prop where
  /-- There is a text that can be opened, and it stays. -/
  | token {box token : String} (hanswers : v.answers = true)
      (hbox : t.tokenSeal.decrypt box = .ok token)
      (hstays : ∀ time, s.clock.uptime ≤ time → time ≤ limit.uptime →
        v.texts s.world key time = some box) : Finds t v key s limit (some token)
  /-- There is nothing, or a text that cannot be opened. -/
  | nothing (hanswers : v.answers = true)
      (hopen : t.open? (v.texts s.world key s.clock.uptime) = none) : Finds t v key s limit none
  /-- The store does not answer. -/
  | silence (hfails : v.answers = false) : Finds t v key s limit none

/-- What the calls of a run share, if the store has a token for them or has none. -/
structure TokenRun.SharesToken (w : TokenRun σ) (found : Option String) : Prop where
  /-- The issuer is asked once at most, … -/
  once : w.replies.length ≤ 1
  /-- … and not at all if the store has a token. -/
  unasked : ∀ token, found = some token → w.replies = []
  /-- If it has none and a call is at its end, the issuer was asked. -/
  asked : found = none → (∃ i r, w.stages i = .done r) → w.replies.length = 1
  /-- A call that is at its end has the token of the store, or that of the only reply of the issuer. -/
  result : ∀ i r, w.stages i = .done r →
    ∃ token, r = .ok token ∧ (found = some token ∨ found = none ∧ Flight.Issued w.replies token)

/-- All calls that are at their ends have the same result. -/
theorem TokenRun.SharesToken.result_eq {w : TokenRun σ} {found : Option String} {i j : Nat}
    {r r' : Except BrokerError String} (h : w.SharesToken found) (hi : w.stages i = .done r)
    (hj : w.stages j = .done r') : r = r' := by
  obtain ⟨token, rfl, hfirst⟩ := h.result i r hi
  obtain ⟨token', rfl, hsecond⟩ := h.result j r' hj
  rcases hfirst with hfound | ⟨hnone, hissued⟩ <;> rcases hsecond with hfound' | ⟨hnone', hissued'⟩
  · rw [Option.some.inj (hfound.symm.trans hfound')]
  · cases hfound.symm.trans hnone'
  · cases hnone.symm.trans hfound'
  · rw [hissued.unique hissued']

/-- Calls that find nothing share the issued token. -/
theorem Flight.Sound.sharesToken {f : Flight σ} {w : TokenRun σ} (h : f.Sound w) :
    w.SharesToken none := by
  have hdone : ∀ i r, w.stages i = .done r →
      ∃ token, r = .ok token ∧ Flight.Issued w.replies token := fun i r hr => h.stageSound hr
  refine ⟨h.once, nofun, ?_, ?_⟩
  · rintro - ⟨i, r, hr⟩
    obtain ⟨-, -, issuedAt, reply, hreplies, -⟩ := hdone i r hr
    rw [hreplies]
    rfl
  · intro i r hr
    obtain ⟨token, hresult, hissued⟩ := hdone i r hr
    exact ⟨token, hresult, .inr ⟨rfl, hissued⟩⟩

/-- Calls that find a token share it. -/
theorem Flight.Provided.sharesToken {f : Flight σ} {w : TokenRun σ} {box token : String}
    (h : f.Provided box token w) : w.SharesToken (some token) := by
  refine ⟨by rw [h.unasked]; exact Nat.zero_le 1, fun _ _ => h.unasked, nofun, fun i r hr => ?_⟩
  rcases h.stages i with hstage | hstage | hstage
  · cases hr.symm.trans hstage
  · cases hr.symm.trans hstage
  · cases hr.symm.trans hstage
    exact ⟨token, rfl, .inl rfl⟩

/-- **One token for all who ask at once.** However calls for the token of one account are interleaved:
if the store has a token, all of them end with it and nobody asks the issuer; if it has none or does
not answer, the issuer is asked once for all of them. The process was not asked before, and the run
ends before the issued token has to be given up. A call that has no company is one of these runs. -/
theorem TokenCache.sharesToken_of_leads (t : TokenCache σ) {v : StoreView σ} (hsep : t.Separate v)
    (hstore : t.StoreLaw v) {refs : Nat → TokenReference} {a : Account}
    (hrefs : ∀ i, t.account? (refs i) = some a) (hnumber : Text.isBlankText a.number = false)
    {s : Session σ} (hdesk : t.desk.get s.world = .empty) (hsteady : v.steady s.world)
    (hregular : s.clock.wall.Regular) :
    ∃ calls : Nat → TokenCall, (∀ i, t.callTo i (refs i) = .ok (calls i)) ∧
      (∀ w found, TokenRun.Leads t calls (.start s) w →
        t.Finds v (calls 0).key s w.session.clock found →
        (∀ x ∈ w.replies, Flight.GaveUntil w.session.clock.wall x) → w.SharesToken found ∧
          ∀ i j r r', w.stages i = .done r → w.stages j = .done r' → r = r') ∧
      ∀ (i limit : Nat) (w₁ : TokenRun σ), ∃ w₂, TokenRun.Leads t calls w₁ w₂ ∧
        (w₂.stages i, w₂.session) =
          Act.exec (t.finish (calls i) limit (w₁.stages i)) w₁.session := by
  obtain ⟨hash, hhash⟩ := t.exists_callOf hnumber
  refine ⟨fun i => ⟨a, hash, i⟩, fun i => (t.callTo_eq_callOf (hrefs i) i).trans (hhash i), ?_,
    TokenRun.leads_finish t _⟩
  intro w found hleads hfinds hgave
  suffices hshares : w.SharesToken found from
    ⟨hshares, fun i j r r' hi hj => hshares.result_eq hi hj⟩
  let f : Flight σ := ⟨t, v, a, hash, w.session.clock⟩
  have hsound : f.Sound (.start s) → f.Sound w := fun hstart =>
    Flight.sound_of_leads hsep hstore hsteady hstart hleads (.refl _) hgave
  cases hfinds with
  | @token box token hanswers hbox hstays =>
      have hstart : f.Provided box token (.start s) := ⟨rfl, hstays, fun _ => .inl rfl⟩
      have hprovided : f.Provided box token w :=
        Flight.provided_of_leads hsep hstore hsteady hanswers hbox hstart hleads (.refl _)
      exact hprovided.sharesToken
  | nothing hanswers hopen =>
      have hstart : f.Sound (.start s) :=
        Flight.sound_start hdesk hregular fun _ => ⟨hstore.answers hanswers, hopen⟩
      exact (hsound hstart).sharesToken
  | silence hfails =>
      -- What the store holds does not matter while it does not answer.
      have hstart : f.Sound (.start s) := Flight.sound_start hdesk hregular fun hanswers =>
        (Bool.false_ne_true (hfails.symm.trans hanswers)).elim
      exact (hsound hstart).sharesToken

/-! ### Two calls, step by step -/

namespace TwoCalls

/-- The account, which one caller knows by its name. -/
def account : Account := ⟨"main", "12345678-01", "key", "secret"⟩

/-- The only answer of the issuer. -/
def reply : TokenReply := ⟨some "token", none, some "Bearer", some 86400⟩

def cache : TokenCache TokenWorld :=
  TokenWorld.cache (.ofAccounts .real [account]) ⟨List.replicate 32 7, rfl⟩ ⟨List.replicate 32 9⟩

def session : Session TokenWorld :=
  ⟨⟨.empty, ⟨[(account.number, [.ok (some reply)])], []⟩, .empty, []⟩, ⟨⟨1700000000, 0⟩, 0⟩, []⟩

def reference (i : Nat) : TokenReference := if i = 0 then .named "main" else .forPrices

def call (i : Nat) : TokenCall := ⟨account, "5c1a30535187008c", i⟩

/-- Both calls find nothing and get in line. The first one asks the issuer and lets the lock go, and
the second one looks once more. -/
def run : TokenRun TokenWorld :=
  [0, 1, 0, 1, 0, 1, 0, 1, 0, 0, 1, 0, 0, 0, 0, 0, 1, 1].foldl (·.call cache call ·) (.start session)

theorem account?_reference (i : Nat) : cache.account? (reference i) = some account := by
  unfold reference
  split <;> rfl

theorem callTo_reference (i : Nat) : cache.callTo i (reference i) = .ok (call i) := by
  have hhash : cache.hasher.hash account.number = .ok "5c1a30535187008c" := by decide +kernel
  rw [cache.callTo_eq_callOf (account?_reference i), TokenCache.callOf, hhash]
  rfl

theorem replies_run : run.replies = [(⟨1700000000, 0⟩, .ok (some reply))] := by decide +kernel

end TwoCalls

/-- Two calls at once, one by the name of the account and one as the account that asks for prices. -/
theorem TokenCache.sharesToken_of_twoCalls : TwoCalls.run.SharesToken none := by
  have hsep := TokenWorld.separate_cache (.ofAccounts .real [TwoCalls.account])
    ⟨List.replicate 32 7, rfl⟩ ⟨List.replicate 32 9⟩ true
  have hstore := TokenWorld.storeLaw_cache (.ofAccounts .real [TwoCalls.account])
    ⟨List.replicate 32 7, rfl⟩ ⟨List.replicate 32 9⟩ true
  have hsteady : (TokenWorld.shelfView true).steady TwoCalls.session.world := ⟨rfl, rfl⟩
  have hregular : TwoCalls.session.clock.wall.Regular := show 0 < 1000000000 by decide
  obtain ⟨calls, hcalls, hshares, -⟩ := TokenCache.sharesToken_of_leads TwoCalls.cache hsep hstore
    TwoCalls.account?_reference (by decide) rfl hsteady hregular
  obtain rfl : calls = TwoCalls.call :=
    funext fun i => Except.ok.inj ((hcalls i).symm.trans (TwoCalls.callTo_reference i))
  refine (hshares TwoCalls.run none (TokenRun.leads_foldl _ _) (.nothing rfl rfl) ?_).1
  intro x hx
  rw [TwoCalls.replies_run] at hx
  cases List.mem_singleton.mp hx
  exact ⟨TwoCalls.reply, "token", ⟨1700086100, 0⟩, rfl, by decide, by decide, by decide +kernel⟩

end DailyBars
