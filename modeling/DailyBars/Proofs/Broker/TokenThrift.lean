import DailyBars.Proofs.Broker.TokenMargin

/-!
# How often the issuer is asked

Calls for the token of one account that are made in one process, one after the other, while the store
fails whenever it likes. The token that was issued last is on the desk of the process, and in the store
if the store took it, until five minutes before its end. A call asks the issuer only after the store
has answered twice without giving a token: a store that fails reading makes the token on the desk stand
in, and a store that has taken the token gives it. What is left is a store that refuses every token and
still says that it has none; then every call asks the issuer.
-/

namespace DailyBars

variable {σ : Type}

open TokenReply (fiveMinutes Leaves)

/-- Whether the issuer is asked by the deed. -/
def TokenDeed.asks (d : TokenDeed σ) : Bool :=
  match d.stage with
  | .issuing => true
  | _ => false

theorem TokenDeed.stage_of_asks {d : TokenDeed σ} (h : d.asks) : d.stage = .issuing := by
  unfold asks at h
  split at h
  · assumption
  · cases h

namespace TokenStage

/-- Stages in which a call has the answer of the issuer and has not written its token yet. -/
def refreshing : TokenStage → Bool
  | .weighing .. | .keeping .. | .writing .. => true
  | _ => false

/-- Stages in which a call has not written a token yet. -/
def unwritten : TokenStage → Bool
  | .releasing _ | .done _ => false
  | _ => true

theorem not_refreshing_of_idle {stage : TokenStage} (h : stage.idle) : stage.refreshing = false := by
  cases stage with
  | reading locked | done => rfl
  | _ => cases h

end TokenStage

/-- One step of calls that are made one after the other: a call goes on only while every other call
has done nothing yet or is at its end. -/
inductive TurnStep (g : TokenTeam σ) (texts : σ → String → Nat → Option String)
    (w : TokenTraffic σ) : TokenTraffic σ → Prop
  | act (i : Nat) {c : TokenCall} (hc : g.call? i = .ok c)
      (halone : ∀ j, j ≠ i → (w.stages j).idle) : TurnStep g texts w (g.act w i c)
  | other {s' : Session σ} (h : g.Untouched texts w.session s') :
      TurnStep g texts w { w with session := s' }

/-- Calls at stages that others come to from theirs, one after the other. -/
abbrev TokenTeam.LeadsInTurn (g : TokenTeam σ) (texts : σ → String → Nat → Option String) :
    TokenTraffic σ → TokenTraffic σ → Prop :=
  Relation.ReflTransGen (TurnStep g texts)

namespace TokenTeam

variable (g : TokenTeam σ) (texts : σ → String → Nat → Option String)

/-- The calls are made in one process, for the account of one hash. -/
def OneAccount (p : Nat) (hash : String) : Prop :=
  ∀ i c, g.call? i = .ok c → g.process i = p ∧ c.hash = hash

/-- A store that gives the text that it has taken, until the time for which it was told to keep it is
over. -/
def Retains : Prop :=
  ∀ p key text ttl s s', ((g.store p).set key text ttl).exec s = (.ok (), s') →
    ∀ time, s'.clock.uptime ≤ time → time < s.clock.uptime + ttl →
      texts s'.world key time = some text

/-- By the deed a token was sealed, and the store took it. -/
def Saved (d : TokenDeed σ) : Prop :=
  ∃ c token ttl box, g.call? d.call = .ok c ∧ d.stage = .writing token ttl ∧
    let made := Act.exec (g.freshNonce (g.process d.call)) d.before
    g.tokenSeal.encrypt made.1 token = .ok box ∧
      (((g.store (g.process d.call)).set c.key box ttl).exec made.2).1 = .ok ()

/-- A call has had a token taken by the store. -/
def SavedBy (deeds : List (TokenDeed σ)) (i : Nat) : Prop :=
  ∃ d ∈ deeds, d.call = i ∧ g.Saved d

/-- The store has answered a call that has the lock, and has given no text that can be opened. -/
def MissedBy (p : Nat) (deeds : List (TokenDeed σ)) (i : Nat) : Prop :=
  ∃ d ∈ deeds, d.call = i ∧ d.stage = .reading true ∧
    ∃ text, d.next = .judging true (.ok text) ∧ (g.cache p).open? text = none

/-- The deed is the last by which the issuer was asked; it has given a token, which ends at an
instant. -/
def LastIssued (deeds : List (TokenDeed σ)) (d : TokenDeed σ) (E : Instant) : Prop :=
  deeds.find? (·.asks) = some d ∧ ∃ reply token, d.Answered reply ∧ reply.token? = some token ∧
    reply.Ends d.before.clock.wall E

/-- More than five minutes are left until an instant. -/
def Ahead (c : Clock) (E : Instant) : Prop := c.wall.totalNanos + fiveMinutes < E.totalNanos

/-- The issuer is asked while the token that it has given last has more than five minutes left, only by
calls to which the store has answered that it has none, and only if it had not taken that token. -/
def AsksInNeed (p : Nat) (deeds : List (TokenDeed σ)) : Prop :=
  ∀ later d earlier, deeds = later ++ d :: earlier → d.asks → ∀ e E, LastIssued earlier e E →
    Ahead d.before.clock E → ¬ g.SavedBy earlier e.call ∧ g.MissedBy p earlier d.call

variable {g texts} {s s' s₀ : Session σ} {p i : Nat} {hash : String} {c : TokenCall}
  {stage next : TokenStage} {w w' : TokenTraffic σ} {answers : Bool} {d e : TokenDeed σ}
  {deeds : List (TokenDeed σ)} {E : Instant}

/-! ### Deeds that are no asking and no writing -/

theorem lastIssued_cons (hstage : d.asks = false) :
    LastIssued (d :: deeds) e E ↔ LastIssued deeds e E := by
  unfold LastIssued
  rw [List.find?_cons_of_neg (by rw [hstage]; exact Bool.false_ne_true)]

theorem savedBy_cons (hstage : ∀ token ttl, d.stage ≠ .writing token ttl) {j : Nat} :
    g.SavedBy (d :: deeds) j ↔ g.SavedBy deeds j := by
  constructor
  · rintro ⟨f, hf, hcall, hsaved⟩
    obtain rfl | hf := List.mem_cons.mp hf
    · obtain ⟨-, token, ttl, -, -, hwriting, -⟩ := hsaved
      exact absurd hwriting (hstage token ttl)
    · exact ⟨f, hf, hcall, hsaved⟩
  · rintro ⟨f, hf, hsaved⟩
    exact ⟨f, List.mem_cons_of_mem _ hf, hsaved⟩

theorem MissedBy.mono {deeds' : List (TokenDeed σ)} (h : g.MissedBy p deeds i)
    (hsub : deeds ⊆ deeds') : g.MissedBy p deeds' i := by
  obtain ⟨f, hf, hmissed⟩ := h
  exact ⟨f, hsub hf, hmissed⟩

theorem Ahead.of_later (h : Ahead s'.clock E) (hlater : s.clock.Later s'.clock) :
    Ahead s.clock E := by
  have hpace := hlater.totalNanos_eq
  unfold Ahead at h ⊢
  omega

/-! ### Where the token is that was issued last -/

/-- Until an instant a token is served that ends at another. -/
def Serves (u E : Instant) : Prop := u.Regular ∧ u.totalNanos + fiveMinutes = E.totalNanos

/-- A token that ends at an instant is on the desk of the process. -/
def Holds (g : TokenTeam σ) (p : Nat) (hash : String) (s : Session σ) (E : Instant) : Prop :=
  ∃ kept, (g.deskIn p s).held.lookup hash = some kept ∧ Serves kept.validUntil E

/-- The store gives a token, until five minutes before an instant. -/
def Gives (g : TokenTeam σ) (texts : σ → String → Nat → Option String) (p : Nat) (hash : String)
    (s : Session σ) (E : Instant) : Prop :=
  ∀ time, s.clock.uptime ≤ time → s.clock.nanosAt time + fiveMinutes < E.totalNanos →
    ∃ token, (g.cache p).open? (texts s.world ("kis:token:" ++ hash) time) = some token

/-- A length of time reaches until five minutes before an instant. -/
def Reaches (s : Session σ) (ttl : Nat) (E : Instant) : Prop :=
  E.totalNanos ≤ s.clock.wall.totalNanos + ttl + fiveMinutes

/-- The token of a call is on the desk, and in the store if that took it. -/
def Settled (g : TokenTeam σ) (texts : σ → String → Nat → Option String) (p : Nat) (hash : String)
    (deeds : List (TokenDeed σ)) (s : Session σ) (i : Nat) (E : Instant) : Prop :=
  g.Holds p hash s E ∧ (g.SavedBy deeds i → g.Gives texts p hash s E)

/-- Where the token is that was issued by a deed, given the stage of its call. -/
def Placed (g : TokenTeam σ) (texts : σ → String → Nat → Option String) (p : Nat) (hash : String)
    (deeds : List (TokenDeed σ)) (s : Session σ) (d : TokenDeed σ) (E : Instant) :
    TokenStage → Prop
  | .weighing issuedAt reply => d.next = .weighing issuedAt reply
  | .keeping _ u ttl => Serves u E ∧ Reaches s ttl E
  | .writing _ ttl => g.Holds p hash s E ∧ Reaches s ttl E
  | _ => g.Settled texts p hash deeds s d.call E

theorem placed_of_not_refreshing (h : stage.refreshing = false) :
    g.Placed texts p hash deeds s d E stage ↔ g.Settled texts p hash deeds s d.call E := by
  cases stage with
  | weighing issuedAt reply | keeping token u ttl | writing token ttl => cases h
  | _ => exact Iff.rfl

theorem Holds.keep (h : g.Holds p hash s E)
    (hdesk : (g.deskIn p s').held = (g.deskIn p s).held) : g.Holds p hash s' E := by
  unfold Holds
  rw [hdesk]
  exact h

theorem Gives.keep (h : g.Gives texts p hash s E) (hlater : s.clock.Later s'.clock)
    (htexts : texts s'.world = texts s.world) : g.Gives texts p hash s' E := by
  intro time hfrom hto
  rw [htexts]
  rw [hlater.nanosAt_eq] at hto
  exact h time (Nat.le_trans hlater.uptime_le hfrom) hto

theorem Reaches.keep {ttl : Nat} (h : Reaches s ttl E) (hlater : s.clock.Later s'.clock) :
    Reaches s' ttl E := by
  have hpace := hlater.totalNanos_eq
  unfold Reaches at h ⊢
  omega

theorem Settled.keep (h : g.Settled texts p hash deeds s i E) {deeds' : List (TokenDeed σ)}
    (hlater : s.clock.Later s'.clock) (hdesk : (g.deskIn p s').held = (g.deskIn p s).held)
    (htexts : texts s'.world = texts s.world) (hsaved : g.SavedBy deeds' i → g.SavedBy deeds i) :
    g.Settled texts p hash deeds' s' i E :=
  ⟨h.1.keep hdesk, fun hs => (h.2 (hsaved hs)).keep hlater htexts⟩

theorem Placed.keep (h : g.Placed texts p hash deeds s d E stage) (hkeeps : g.Untouched texts s s') :
    g.Placed texts p hash deeds s' d E stage := by
  have hdesk : (g.deskIn p s').held = (g.deskIn p s).held := by rw [hkeeps.desks]
  cases stage with
  | weighing issuedAt reply => exact h
  | keeping token u ttl => exact ⟨h.1, h.2.keep hkeeps.later⟩
  | writing token ttl => exact ⟨h.1.keep hdesk, h.2.keep hkeeps.later⟩
  | _ => exact Settled.keep h hkeeps.later hdesk hkeeps.texts id

/-- The token on the desk stands in for a store that does not answer. -/
theorem Holds.servable (h : g.Holds p hash s E) (hregular : s.clock.wall.Regular)
    (hahead : Ahead s.clock E) :
    ∃ token, (g.deskIn p s).servable? hash s.clock.wall = some token := by
  obtain ⟨kept, hkept, hserved, hleft⟩ := h
  refine ⟨kept.token, ?_⟩
  have hnow : s.clock.wall < kept.validUntil := by
    rw [Instant.lt_iff_totalNanos_lt hregular hserved]
    unfold Ahead at hahead
    omega
  simp [TokenDesk.servable?, hkept, Option.filter, hnow]

/-! ### What the store takes it gives -/

theorem exec_write_of_encrypt {t : TokenCache σ} {token box : String}
    (hbox : t.tokenSeal.encrypt (Act.exec t.freshNonce s).1 token = .ok box) (ttl : Nat) :
    ∃ log, (Act.exec (t.write c token ttl) s).2 =
      { ((t.store.set c.key box ttl).exec (Act.exec t.freshNonce s).2).2 with log := log } := by
  unfold TokenCache.write
  rw [Act.exec_bind]
  dsimp only
  rw [hbox]
  dsimp only
  rw [Act.exec_bind, Act.exec_run]
  rcases (t.store.set c.key box ttl).exec (Act.exec t.freshNonce s).2 with ⟨result, after⟩
  cases result <;> exact ⟨_, rfl⟩

/-- A token that the store has taken is in the store from then on. -/
theorem gives_of_saved (hg : g.Lawful texts) (hstore : g.Retains texts) (hc : g.call? i = .ok c)
    (hhash : c.hash = hash) {token : String} {ttl : Nat} (hreaches : Reaches s ttl E)
    (hsaved : g.Saved ⟨i, .writing token ttl, s, next, s'⟩)
    (hs' : s' = (Act.exec ((g.cache (g.process i)).write c token ttl) s).2) :
    g.Gives texts p hash s' E := by
  obtain ⟨c', token', ttl', box, hc', hwriting, hbox, hset⟩ := hsaved
  cases hc.symm.trans hc'
  cases hwriting
  have hnonce : g.Untouched texts s (Act.exec (g.freshNonce (g.process i)) s).2 := hg.nonce _ s
  obtain ⟨log, hwrite⟩ := exec_write_of_encrypt (t := g.cache (g.process i)) (c := c) hbox ttl
  rcases hexec : ((g.store (g.process i)).set c.key box ttl).exec
    (Act.exec (g.freshNonce (g.process i)) s).2 with ⟨result, after⟩
  rw [hexec] at hset
  obtain rfl : result = .ok () := hset
  have htexts := hstore _ _ _ _ _ _ hexec
  have hlater : s.clock.Later after.clock := by
    have hset := hg.set_later (g.process i) c.key box ttl (Act.exec (g.freshNonce (g.process i)) s).2
    rw [hexec] at hset
    exact hnonce.later.trans hset
  have hafter : s' = { after with log := log } := by
    rw [hs', hwrite]
    exact congrArg (fun r : Except StorageError Unit × Session σ => { r.2 with log := log }) hexec
  subst hafter
  intro time hfrom hto
  refine ⟨token, open?_eq_some.mpr ⟨box, ?_, TokenSeal.decrypt_of_encrypt hbox⟩⟩
  rw [← hhash]
  refine htexts time hfrom ?_
  -- The store counts from a time that is no earlier than the one at which the call began to write.
  have huptime := hnonce.later.uptime_le
  rw [hlater.nanosAt_eq] at hto
  unfold Clock.nanosAt at hto
  unfold Reaches at hreaches
  omega

/-! ### What a call keeps of its answer -/

/-- What is later than the calendar's reach on one side and earlier than on the other is in reach. -/
theorem inCalendar_of_ahead {start : Instant} (hstart : start.inCalendar) (hE : E.inCalendar)
    (hnanos : E.nanos < 2000000000) {now : Instant} (hnow : now.Regular)
    (hfrom : start.totalNanos ≤ now.totalNanos) (hto : now.totalNanos + fiveMinutes < E.totalNanos) :
    now.inCalendar := by
  unfold Instant.Regular at hnow
  unfold Instant.totalNanos at hfrom hto
  unfold fiveMinutes at hto
  simp only [Instant.inCalendar, Bool.and_eq_true, decide_eq_true_eq] at hstart hE ⊢
  omega

/-- An answer that leaves more than five minutes is kept. -/
theorem placed_weighed (hlast : LastIssued deeds d E) (hissued : d.before.clock.wall.Regular)
    (hregular : s.clock.wall.Regular) (hreach : s₀.clock.wall.inCalendar)
    (hstart : s₀.clock.Later s.clock) (hahead : Ahead s.clock E) {issuedAt : Instant}
    {reply : Except BrokerError (Option TokenReply)} (hnext : d.next = .weighing issuedAt reply)
    (hlater : s.clock.Later s'.clock) {deeds' : List (TokenDeed σ)} :
    g.Placed texts p hash deeds' s' d E (TokenCache.weighed issuedAt s.clock.wall reply) := by
  obtain ⟨-, r, token, ⟨-, hanswer⟩, htoken, hends⟩ := hlast
  obtain ⟨rfl, rfl⟩ := TokenStage.weighing.inj (hnext.symm.trans hanswer)
  have hcalendar : s.clock.wall.inCalendar := by
    have hexpires := (TokenReply.expiresAt?_eq_some_iff hissued).mpr hends
    refine inCalendar_of_ahead hreach hends.inCalendar
      (TokenReply.nanos_lt_of_expiresAt? hissued hexpires) hregular ?_ hahead
    have hpace := hstart.totalNanos_eq
    omega
  obtain ⟨u, ttl, hleaves, hkeeping⟩ :=
    TokenCache.weighed_of_lasts hissued hregular hcalendar htoken ⟨hends, hahead⟩
  rw [hkeeping]
  have hserved := hleaves.served
  have hleft := hleaves.left
  refine ⟨⟨hleaves.regular, by omega⟩, Reaches.keep (s := s) ?_ hlater⟩
  unfold Reaches
  omega

/-! ### The invariant -/

/-- What holds at any time of calls that are made one after the other. -/
structure Thrifty (g : TokenTeam σ) (texts : σ → String → Nat → Option String) (p : Nat)
    (hash : String) (s₀ : Session σ) (w : TokenTraffic σ) : Prop where
  later : s₀.clock.Later w.session.clock
  issued : ∀ d ∈ w.deeds, d.before.clock.wall.Regular
  /-- Only the call that has asked last can have an answer that is not written yet, … -/
  current : ∀ i, (w.stages i).refreshing →
    ∃ d, w.deeds.find? (·.asks) = some d ∧ d.call = i
  /-- … and the store has taken nothing from it. -/
  unsaved : ∀ i, (w.stages i).unwritten → ¬ g.SavedBy w.deeds i
  placed : ∀ d E, LastIssued w.deeds d E → Ahead w.session.clock E →
    g.Placed texts p hash w.deeds w.session d E (w.stages d.call)
  /-- A store that has taken the token has given a token to the call that has looked for it. -/
  found : ∀ i answer, w.stages i = .judging true answer →
    (∃ d ∈ w.deeds, d.call = i ∧ d.stage = .reading true ∧ d.next = .judging true answer) ∧
      ∀ text, answer = .ok text → ∀ d E, LastIssued w.deeds d E → Ahead w.session.clock E →
        g.SavedBy w.deeds d.call → ∃ token, (g.cache p).open? text = some token
  needed : ∀ i, w.stages i = .issuing → ∀ d E, LastIssued w.deeds d E → Ahead w.session.clock E →
    ¬ g.SavedBy w.deeds d.call ∧ g.MissedBy p w.deeds i
  asked : g.AsksInNeed p w.deeds

theorem thrifty_start (s : Session σ) : g.Thrifty texts p hash s (g.start s) := by
  have hstage : ∀ i, ((g.start s).stages i).idle := by
    intro i
    unfold start
    dsimp only
    split <;> rfl
  constructor
  case later => exact .refl _
  case issued => exact fun d hd => nomatch hd
  case current =>
    intro i hi
    rw [TokenStage.not_refreshing_of_idle (hstage i)] at hi
    cases hi
  case unsaved => exact fun i _ ⟨d, hd, _⟩ => nomatch hd
  case placed => exact fun d E hlast => nomatch hlast.1
  case found =>
    intro i answer hi
    have hidle := hstage i
    rw [hi] at hidle
    cases hidle
  case needed => exact fun i _ d E hlast => nomatch hlast.1
  case asked =>
    intro later d earlier hdeeds
    cases later <;> cases hdeeds

/-- Time may pass. -/
theorem Thrifty.other (h : g.Thrifty texts p hash s₀ w) (hother : g.Untouched texts w.session s') :
    g.Thrifty texts p hash s₀ { w with session := s' } := by
  constructor
  case later => exact h.later.trans hother.later
  case issued => exact h.issued
  case current => exact h.current
  case unsaved => exact h.unsaved
  case placed =>
    exact fun d E hlast hahead => (h.placed d E hlast (hahead.of_later hother.later)).keep hother
  case found =>
    intro i answer hi
    obtain ⟨hread, hfound⟩ := h.found i answer hi
    exact ⟨hread, fun text hanswer d E hlast hahead =>
      hfound text hanswer d E hlast (hahead.of_later hother.later)⟩
  case needed =>
    exact fun i hi d E hlast hahead => h.needed i hi d E hlast (hahead.of_later hother.later)
  case asked => exact h.asked

/-! ### What a step keeps -/

theorem asks_eq_false (hstage : stage ≠ .issuing) :
    (⟨i, stage, s, next, s'⟩ : TokenDeed σ).asks = false := by
  cases stage with
  | issuing => exact absurd rfl hstage
  | _ => rfl

/-- A call comes to an answer by asking for it only. -/
theorem refreshing_of_move
    (hmove : TokenMove (g.cache p) (g.view texts p s answers) c s stage next s')
    (hnext : next.refreshing) : stage = .issuing ∨ stage.refreshing := by
  cases hmove with
  | ask reply h => exact .inl rfl
  | weigh issuedAt reply h | keep token u ttl h => exact .inr rfl
  | hit locked hfound h => cases locked <;> cases hnext
  | miss locked hfound h => cases locked <;> cases hnext
  | stop result => exact .inr hnext
  | _ => cases hnext

/-- Nothing is written on the way to a stage in which nothing is written. -/
theorem unwritten_of_move
    (hmove : TokenMove (g.cache p) (g.view texts p s answers) c s stage next s')
    (hnext : next.unwritten) : stage.unwritten ∧ ∀ token ttl, stage ≠ .writing token ttl := by
  cases hmove with
  | write token ttl h hwritten => cases hnext
  | release result h => cases hnext
  | stop result => cases hnext
  | _ => exact ⟨rfl, nofun⟩

theorem Settled.move (h : g.Settled texts p hash deeds s i E) {q j : Nat}
    (hmove : TokenMove (g.cache q) (g.view texts q s answers) c s stage next s')
    (hstage : stage.refreshing = false) :
    g.Settled texts p hash (⟨j, stage, s, next, s'⟩ :: deeds) s' i E := by
  have hnotWriting : ∀ token ttl, stage ≠ .writing token ttl := by
    rintro token ttl rfl
    cases hstage
  refine h.keep hmove.later (held_of_move hmove ?_ p) (texts_of_move hmove hnotWriting)
    (savedBy_cons hnotWriting).mp
  rintro token u ttl rfl
  cases hstage

theorem Thrifty.current_of_move (h : g.Thrifty texts p hash s₀ w)
    (halone : ∀ j, j ≠ i → (w.stages j).idle)
    (hmove : TokenMove (g.cache (g.process i)) (g.view texts (g.process i) w.session answers) c
      w.session (w.stages i) next s') {j : Nat}
    (hj : (Function.update w.stages i next j).refreshing) :
    ∃ d, ((⟨i, w.stages i, w.session, next, s'⟩ : TokenDeed σ) :: w.deeds).find? (·.asks) = some d ∧
      d.call = j := by
  by_cases hji : j = i
  · subst hji
    rw [Function.update_self] at hj
    by_cases hissuing : w.stages j = .issuing
    · exact ⟨_, List.find?_cons_of_pos (by rw [hissuing]; rfl), rfl⟩
    · rw [List.find?_cons_of_neg (by rw [asks_eq_false hissuing]; exact Bool.false_ne_true)]
      exact h.current j ((refreshing_of_move hmove hj).resolve_left hissuing)
  · rw [Function.update_of_ne hji, TokenStage.not_refreshing_of_idle (halone j hji)] at hj
    cases hj

theorem Thrifty.unsaved_of_move (h : g.Thrifty texts p hash s₀ w)
    (hmove : TokenMove (g.cache (g.process i)) (g.view texts (g.process i) w.session answers) c
      w.session (w.stages i) next s') {j : Nat} (hj : (Function.update w.stages i next j).unwritten) :
    ¬ g.SavedBy (⟨i, w.stages i, w.session, next, s'⟩ :: w.deeds) j := by
  intro hsaved
  by_cases hji : j = i
  · subst hji
    rw [Function.update_self] at hj
    obtain ⟨hstage, hnotWriting⟩ := unwritten_of_move hmove hj
    exact h.unsaved j hstage ((savedBy_cons hnotWriting).mp hsaved)
  · rw [Function.update_of_ne hji] at hj
    obtain ⟨f, hf, hcall, hsaved⟩ := hsaved
    obtain rfl | hf := List.mem_cons.mp hf
    · exact hji hcall.symm
    · exact h.unsaved j hj ⟨f, hf, hcall, hsaved⟩

/-- The call that the token was issued for takes it from its answer to the desk, and on to the store. -/
theorem Thrifty.placed_of_refreshing
    (h : g.Thrifty texts (g.process d.call) c.hash s₀ w) (hg : g.Lawful texts)
    (hstore : g.Retains texts) (hregular : w.session.clock.wall.Regular)
    (hreach : s₀.clock.wall.inCalendar) (hc : g.call? d.call = .ok c)
    (hmove : TokenMove (g.cache (g.process d.call))
      (g.view texts (g.process d.call) w.session answers) c w.session (w.stages d.call) next s')
    (hs' : s' = (Act.exec ((g.cache (g.process d.call)).step c (w.stages d.call)) w.session).2)
    (hrefreshing : (w.stages d.call).refreshing) (hissuing : w.stages d.call ≠ .issuing)
    (hlast : LastIssued w.deeds d E) (hahead : Ahead w.session.clock E)
    (hplaced : g.Placed texts (g.process d.call) c.hash w.deeds w.session d E (w.stages d.call)) :
    g.Placed texts (g.process d.call) c.hash
      (⟨d.call, w.stages d.call, w.session, next, s'⟩ :: w.deeds) s' d E next := by
  have hunsaved := h.unsaved d.call
  generalize hstage : w.stages d.call = before at *
  cases hmove with
  | ask reply hkeeps => exact absurd rfl hissuing
  | weigh issuedAt reply hkeeps =>
      refine placed_weighed hlast (h.issued d (List.mem_of_find?_eq_some hlast.1)) hregular hreach
        h.later hahead hplaced hkeeps.later
  | keep token u ttl hputs =>
      refine ⟨⟨⟨token, u⟩, ?_, hplaced.1⟩, hplaced.2.keep hputs.later⟩
      have hdesk : g.deskIn (g.process d.call) s' = _ := hputs.desk
      rw [hdesk, TokenDesk.lookup_keep, if_pos rfl]
  | write token ttl hfollows hwritten =>
      refine ⟨hplaced.1.keep (desk_of_follows (·.held) hfollows rfl _), ?_⟩
      rintro ⟨f, hf, hfcall, hsaved⟩
      obtain rfl | hf := List.mem_cons.mp hf
      · exact gives_of_saved hg hstore hc rfl hplaced.2 hsaved hs'
      · exact absurd ⟨f, hf, hfcall, hsaved⟩ (hunsaved rfl)
  | stop result => cases hrefreshing
  | _ => cases hrefreshing

theorem Thrifty.placed_of_move (h : g.Thrifty texts p hash s₀ w) (hg : g.Lawful texts)
    (hstore : g.Retains texts) (hone : g.OneAccount p hash)
    (hregular : w.session.clock.wall.Regular) (hreach : s₀.clock.wall.inCalendar)
    (hc : g.call? i = .ok c) (halone : ∀ j, j ≠ i → (w.stages j).idle)
    (hmove : TokenMove (g.cache (g.process i)) (g.view texts (g.process i) w.session answers) c
      w.session (w.stages i) next s')
    (hs' : s' = (Act.exec ((g.cache (g.process i)).step c (w.stages i)) w.session).2)
    (hlast : LastIssued (⟨i, w.stages i, w.session, next, s'⟩ :: w.deeds) d E)
    (hahead : Ahead s'.clock E) :
    g.Placed texts p hash (⟨i, w.stages i, w.session, next, s'⟩ :: w.deeds) s' d E
      (Function.update w.stages i next d.call) := by
  by_cases hissuing : w.stages i = .issuing
  · -- The token is the one that has just been issued.
    have hnew := hlast.1
    rw [List.find?_cons_of_pos (by rw [hissuing]; rfl)] at hnew
    obtain rfl := Option.some.inj hnew
    rw [Function.update_self]
    rw [hissuing] at hmove ⊢
    cases hmove with
    | ask reply hkeeps => rfl
  have hbefore := (lastIssued_cons (asks_eq_false hissuing)).mp hlast
  have hplaced := h.placed d E hbefore (hahead.of_later hmove.later)
  by_cases hcall : d.call = i
  · obtain ⟨rfl, rfl⟩ := hone i c hc
    subst hcall
    rw [Function.update_self]
    by_cases hrefreshing : (w.stages d.call).refreshing
    · exact h.placed_of_refreshing hg hstore hregular hreach hc hmove hs' hrefreshing hissuing
        hbefore (hahead.of_later hmove.later) hplaced
    · rw [Bool.not_eq_true] at hrefreshing
      have hnext : next.refreshing = false := by
        by_contra hnext
        rw [Bool.not_eq_false] at hnext
        obtain hstage | hstage := refreshing_of_move hmove hnext
        · exact hissuing hstage
        · rw [hrefreshing] at hstage
          cases hstage
      rw [placed_of_not_refreshing hnext]
      exact Settled.move ((placed_of_not_refreshing hrefreshing).mp hplaced) hmove hrefreshing
  · -- The call is at its end, and the one that goes on has not asked the issuer.
    have hidle := TokenStage.not_refreshing_of_idle (halone d.call hcall)
    rw [Function.update_of_ne hcall, placed_of_not_refreshing hidle]
    refine Settled.move ((placed_of_not_refreshing hidle).mp hplaced) hmove ?_
    by_contra hrefreshing
    rw [Bool.not_eq_false] at hrefreshing
    obtain ⟨d', hd', hcall'⟩ := h.current i hrefreshing
    obtain rfl := Option.some.inj (hbefore.1.symm.trans hd')
    exact hcall hcall'

/-- The store is judged after it was read only. -/
theorem reading_of_move {locked : Bool} {answer : Except StorageError (Option String)}
    (hmove : TokenMove (g.cache p) (g.view texts p s answers) c s stage next s')
    (hnext : next = .judging locked answer) :
    stage = .reading locked ∧ (g.cache p).Reads (g.view texts p s answers) c.key s s' answer := by
  cases hmove with
  | read locked hreads =>
      obtain ⟨rfl, rfl⟩ := TokenStage.judging.inj hnext
      exact ⟨rfl, hreads⟩
  | hit locked hfound h => cases locked <;> cases hnext
  | miss locked hfound h => cases locked <;> cases hnext
  | weigh issuedAt reply h =>
      obtain ⟨result, hweighed⟩ | ⟨token, u, ttl, hweighed⟩ :=
        TokenCache.weighed_cases issuedAt s.clock.wall reply
      · cases hweighed.symm.trans hnext
      · cases hweighed.symm.trans hnext
  | _ => cases hnext

/-- The issuer is asked after nothing was found only. -/
theorem missing_of_move
    (hmove : TokenMove (g.cache p) (g.view texts p s answers) c s stage next s')
    (hnext : next = .issuing) : ∃ answer, stage = .judging true answer ∧
      (g.cache p).found? c.hash (g.deskIn p s) s.clock.wall answer = none := by
  cases hmove with
  | hit locked hfound h => cases locked <;> cases hnext
  | @miss locked answer s' hfound h =>
      cases locked with
      | false => cases hnext
      | true => exact ⟨answer, rfl, hfound⟩
  | weigh issuedAt reply h =>
      obtain ⟨result, hweighed⟩ | ⟨token, u, ttl, hweighed⟩ :=
        TokenCache.weighed_cases issuedAt s.clock.wall reply
      · cases hweighed.symm.trans hnext
      · cases hweighed.symm.trans hnext
  | _ => cases hnext

/-- While nobody has an answer of the issuer under way, the token that was issued last is in its
place. -/
theorem Thrifty.settled (h : g.Thrifty texts p hash s₀ w) (halone : ∀ j, j ≠ i → (w.stages j).idle)
    (hstage : (w.stages i).refreshing = false) (hlast : LastIssued w.deeds d E)
    (hahead : Ahead w.session.clock E) : g.Settled texts p hash w.deeds w.session d.call E := by
  have hplaced := h.placed d E hlast hahead
  by_cases hcall : d.call = i
  · subst hcall
    exact (placed_of_not_refreshing hstage).mp hplaced
  · exact (placed_of_not_refreshing (TokenStage.not_refreshing_of_idle (halone d.call hcall))).mp
      hplaced

/-- A store that has taken the token gives a token when it is read. -/
theorem Thrifty.found_of_read (h : g.Thrifty texts p hash s₀ w) (hone : g.OneAccount p hash)
    (hc : g.call? i = .ok c) (halone : ∀ j, j ≠ i → (w.stages j).idle)
    (hstage : w.stages i = .reading true) {text : Option String}
    (hreads : (g.cache (g.process i)).Reads (g.view texts (g.process i) w.session answers) c.key
      w.session s' (.ok text))
    (hlast : LastIssued w.deeds d E) (hahead : Ahead s'.clock E)
    (hsaved : g.SavedBy w.deeds d.call) : ∃ token, (g.cache p).open? text = some token := by
  have hsettled := h.settled halone (by rw [hstage]; rfl) hlast
    (hahead.of_later hreads.keeps.later)
  obtain ⟨-, hhash⟩ := hone i c hc
  cases answers with
  | false =>
      obtain ⟨e, he⟩ := hreads.failure rfl
      cases he
  | true =>
      obtain ⟨time, hfrom, hto, hanswer⟩ := hreads.text rfl
      obtain rfl := Except.ok.inj hanswer
      have hkey : c.key = "kis:token:" ++ hash := by rw [← hhash]; rfl
      rw [hkey]
      refine hsettled.2 hsaved time hfrom ?_
      -- The store was asked before the call knows the answer.
      rw [← hreads.keeps.later.nanosAt_eq]
      unfold Ahead at hahead
      unfold Clock.nanosAt
      omega

/-- A call that has the lock and finds no token although one is on the desk was told by the store that
there is none. -/
theorem Thrifty.needed_of_miss (h : g.Thrifty texts p hash s₀ w) (hone : g.OneAccount p hash)
    (hregular : w.session.clock.wall.Regular) (hc : g.call? i = .ok c)
    (halone : ∀ j, j ≠ i → (w.stages j).idle) {answer : Except StorageError (Option String)}
    (hstage : w.stages i = .judging true answer)
    (hmiss : (g.cache (g.process i)).found? c.hash (g.deskIn (g.process i) w.session)
      w.session.clock.wall answer = none)
    (hlast : LastIssued w.deeds d E) (hahead : Ahead w.session.clock E) :
    ¬ g.SavedBy w.deeds d.call ∧ g.MissedBy p w.deeds i := by
  obtain ⟨rfl, rfl⟩ := hone i c hc
  obtain ⟨⟨f, hf, hfcall, hreading, hnext⟩, hfound⟩ := h.found i answer hstage
  have hsettled := h.settled halone (by rw [hstage]; rfl) hlast hahead
  cases answer with
  | ok text =>
      have hopen : (g.cache (g.process i)).open? text = none := hmiss
      refine ⟨fun hsaved => ?_, f, hf, hfcall, hreading, text, hnext, hopen⟩
      obtain ⟨token, htoken⟩ := hfound text rfl d E hlast hahead hsaved
      cases hopen.symm.trans htoken
  | error e =>
      obtain ⟨token, htoken⟩ := hsettled.1.servable hregular hahead
      cases htoken.symm.trans hmiss

theorem Thrifty.act (h : g.Thrifty texts p hash s₀ w) (hg : g.Lawful texts) (hstore : g.Retains texts)
    (hone : g.OneAccount p hash) (hregular : s₀.clock.wall.Regular)
    (hreach : s₀.clock.wall.inCalendar) (hc : g.call? i = .ok c)
    (halone : ∀ j, j ≠ i → (w.stages j).idle) : g.Thrifty texts p hash s₀ (g.act w i c) := by
  have hnow := h.later.regular hregular
  obtain ⟨⟨answers, hmove⟩, -⟩ := hg.move (g.process i) c (w.stages i) w.session
  have hother : ∀ {j stage}, stage.idle = false → (g.act w i c).stages j = stage → j = i := by
    intro j stage hstage hj
    by_contra hji
    rw [stages_act_of_ne hji] at hj
    rw [← hj, halone j hji] at hstage
    cases hstage
  have hself := stages_act_self (g := g) w i c
  constructor
  case later => exact h.later.trans hmove.later
  case issued =>
    intro d hd
    obtain rfl | hd := List.mem_cons.mp hd
    · exact hnow
    · exact h.issued d hd
  case current => exact fun j hj => h.current_of_move halone hmove hj
  case unsaved => exact fun j hj => h.unsaved_of_move hmove hj
  case placed =>
    exact fun d E hlast hahead =>
      h.placed_of_move hg hstore hone hnow hreach hc halone hmove rfl hlast hahead
  case found =>
    intro j answer hj
    obtain rfl := hother rfl hj
    obtain ⟨hstage, hreads⟩ := reading_of_move hmove (hself.symm.trans hj)
    refine ⟨⟨_, List.mem_cons_self, rfl, hstage, hself.symm.trans hj⟩, ?_⟩
    rintro text rfl d E hlast hahead hsaved
    have hnotWriting : ∀ token ttl, w.stages j ≠ .writing token ttl := by
      rw [hstage]
      exact nofun
    refine h.found_of_read hone hc halone hstage hreads ?_ hahead ((savedBy_cons hnotWriting).mp hsaved)
    exact (lastIssued_cons (asks_eq_false (by rw [hstage]; exact nofun))).mp hlast
  case needed =>
    intro j hj d E hlast hahead
    obtain rfl := hother rfl hj
    obtain ⟨answer, hstage, hmiss⟩ := missing_of_move hmove (hself.symm.trans hj)
    have hnotWriting : ∀ token ttl, w.stages j ≠ .writing token ttl := by
      rw [hstage]
      exact nofun
    have hlast := (lastIssued_cons (asks_eq_false (by rw [hstage]; exact nofun))).mp hlast
    obtain ⟨hunsaved, hmissed⟩ := h.needed_of_miss hone hnow hc halone hstage hmiss hlast
      (hahead.of_later hmove.later)
    exact ⟨fun hsaved => hunsaved ((savedBy_cons hnotWriting).mp hsaved),
      hmissed.mono (deeds_subset_act ..)⟩
  case asked =>
    intro later d earlier hdeeds hasks e E hlast hahead
    cases later with
    | nil =>
        obtain ⟨rfl, rfl⟩ := List.cons.inj hdeeds
        exact h.needed i (TokenDeed.stage_of_asks hasks) e E hlast hahead
    | cons f later =>
        exact h.asked later d earlier (List.cons.inj hdeeds).2 hasks e E hlast hahead

/-- A call that has no company is one of the runs in which calls are made one after the other. -/
theorem leadsInTurn_finish (texts : σ → String → Nat → Option String) (hc : g.call? i = .ok c)
    (limit : Nat) (halone : ∀ j, j ≠ i → (w.stages j).idle) :
    ∃ w', g.LeadsInTurn texts w w' ∧ (w'.stages i, w'.session) =
      Act.exec ((g.cache (g.process i)).finish c limit (w.stages i)) w.session := by
  refine exists_finish (fun w => ∀ j, j ≠ i → (w.stages j).idle) ?_ limit halone
  intro w halone
  refine ⟨.act i hc halone, fun j hj => ?_⟩
  rw [stages_act_of_ne hj]
  exact halone j hj

/-- **The issuer is asked in need only.** Calls for the token of one account are made in one process,
one after the other, and each reading and each writing of the store may fail. If a call asks the issuer
while the token that was issued last has more than five minutes left, then the store has not taken that
token, and it has told the call that it has none. So neither a store that fails reading nor one that
takes what is written makes the process ask more often than tokens end; only one that fails writing and
answers all the same does. A call that has no company is one of these runs. -/
theorem asksInNeed_of_leads (hg : g.Lawful texts) (hstore : g.Retains texts)
    (hone : g.OneAccount p hash) (hregular : s.clock.wall.Regular) (hreach : s.clock.wall.inCalendar)
    (hleads : g.LeadsInTurn texts (g.start s) w) :
    g.AsksInNeed p w.deeds ∧
      ∀ (i : Nat) (c : TokenCall) (limit : Nat) (w₁ : TokenTraffic σ), g.call? i = .ok c →
        (∀ j, j ≠ i → (w₁.stages j).idle) → ∃ w₂, g.LeadsInTurn texts w₁ w₂ ∧
          (w₂.stages i, w₂.session) =
            Act.exec ((g.cache (g.process i)).finish c limit (w₁.stages i)) w₁.session := by
  have hinvariant : g.Thrifty texts p hash s w := by
    induction hleads with
    | refl => exact thrifty_start s
    | tail _ hstep ih =>
        cases hstep with
        | act i hc halone => exact ih.act hg hstore hone hregular hreach hc halone
        | other hother => exact ih.other hother
  exact ⟨hinvariant.asked, fun i c limit w₁ hc => leadsInTurn_finish texts hc limit⟩

/-- Whenever the issuer is asked, it gives a token that has more than five minutes left. -/
def WellAnswered (deeds : List (TokenDeed σ)) : Prop :=
  ∀ d ∈ deeds, d.asks → ∃ reply token E, d.Answered reply ∧ reply.token? = some token ∧
    reply.Lasts d.before.clock.wall d.after.clock.wall E

/-- The issuer is not asked while the token that it has given last has more than five minutes left. -/
def NeverEarly (deeds : List (TokenDeed σ)) : Prop :=
  ∀ later d earlier, deeds = later ++ d :: earlier → d.asks → ∀ e E, LastIssued earlier e E →
    ¬ Ahead d.before.clock E

end TokenTeam

/-- The shelf of a rehearsal gives what it has taken. -/
theorem TeamWorld.retains_team (config : BrokerConfig) (tokenSeal : TokenSeal)
    (hasher : AccountHasher) (process : Nat → Nat) (reference : Nat → TokenReference) :
    (team config tokenSeal hasher process reference).Retains texts := by
  intro p key text ttl s s' hset time hfrom hto
  change ((RehearsalShelf.store shelfPart).set key text ttl).exec s = _ at hset
  rw [RehearsalShelf.exec_set_store] at hset
  split at hset
  · cases hset
  · cases hset
    exact RehearsalShelf.find?_put hto

/-! ### A store that takes nothing and answers all the same -/

namespace OneProcess

open TwoProcesses (main tokenSeal)

/-- Any number of calls for the token of one account. -/
def team : TokenTeam TeamWorld :=
  TeamWorld.team (.ofAccounts .real [main]) tokenSeal ⟨List.replicate 32 9⟩ (fun _ => 0)
    fun _ => .named "main"

def call (i : Nat) : TokenCall := ⟨main, "5c1a30535187008c", i⟩

/-- A reply whose token ends in a day. -/
def reply (token : String) : TokenReply := ⟨some token, none, some "Bearer", some 86400⟩

/-- The store refuses writing only, and nothing is kept anywhere. -/
def session : Session TeamWorld :=
  ⟨⟨⟨[], false, true⟩, ⟨[(main.number, [.ok (some (reply "first")), .ok (some (reply "second"))])], []⟩,
    fun _ => .empty⟩, ⟨⟨1700000000, 0⟩, 0⟩, []⟩

/-- A call goes on for a number of steps. -/
def goes (i : Nat) : Nat → TokenTraffic TeamWorld → TokenTraffic TeamWorld
  | 0, w => w
  | n + 1, w => team.act (goes i n w) i (call i)

/-- The first call is about to ask the issuer. -/
def first : TokenTraffic TeamWorld := goes 0 6 (team.start session)

/-- The first call has come to its end, and the second one is about to ask the issuer. -/
def second : TokenTraffic TeamWorld := goes 1 6 (goes 0 5 first)

/-- The second call has asked the issuer. -/
def run : TokenTraffic TeamWorld := goes 1 1 second

theorem call?_eq (i : Nat) : team.call? i = .ok (call i) := by
  have hhash : (team.cache 0).hasher.hash main.number = .ok "5c1a30535187008c" := by decide +kernel
  have haccount : (team.cache 0).account? (.named "main") = some main := rfl
  change (team.cache 0).callTo i (.named "main") = _
  rw [TokenCache.callTo_eq_callOf _ haccount, TokenCache.callOf, hhash]
  rfl

theorem leadsInTurn_goes {i : Nat} {w : TokenTraffic TeamWorld}
    (halone : ∀ j, j ≠ i → (w.stages j).idle) (n : Nat) :
    team.LeadsInTurn TeamWorld.texts w (goes i n w) ∧
      ∀ j, j ≠ i → (goes i n w).stages j = w.stages j := by
  induction n with
  | zero => exact ⟨.refl, fun _ _ => rfl⟩
  | succ n ih =>
      obtain ⟨hleads, hothers⟩ := ih
      refine ⟨hleads.tail (.act i (call?_eq i) fun j hj => ?_), fun j hj => ?_⟩
      · rw [hothers j hj]
        exact halone j hj
      · exact (TokenTeam.stages_act_of_ne hj ..).trans (hothers j hj)

theorem idle_start (i : Nat) : ((team.start session).stages i).idle := by
  unfold TokenTeam.start
  dsimp only
  split <;> rfl

theorem leadsInTurn_run : team.LeadsInTurn TeamWorld.texts (team.start session) run := by
  obtain ⟨hfirst, hothers⟩ := leadsInTurn_goes (i := 0) (fun j _ => idle_start j) 11
  have hidle : ∀ j, j ≠ 1 → ((goes 0 11 (team.start session)).stages j).idle := by
    intro j _
    by_cases hj : j = 0
    · subst hj
      decide +kernel
    · rw [hothers j hj]
      exact idle_start j
  exact hfirst.trans (leadsInTurn_goes hidle 7).1

/-- The deed by which the first call asks the issuer, and the one by which the second call does. -/
def asking (w : TokenTraffic TeamWorld) (i : Nat) : TokenDeed TeamWorld :=
  ⟨i, w.stages i, w.session, (team.act w i (call i)).stages i, (team.act w i (call i)).session⟩

theorem deeds_run : run.deeds = asking second 1 :: second.deeds := by
  have hnext := team.stages_act_self second 1 (call 1)
  unfold asking
  rw [hnext]
  rfl

theorem deeds_second : second.deeds = second.deeds.take 10 ++ asking first 0 :: first.deeds := by
  have hnext := team.stages_act_self first 0 (call 0)
  unfold asking
  rw [hnext]
  rfl

theorem asks_deeds : (second.deeds.take 10).all (!·.asks) ∧ first.deeds.all (!·.asks) ∧
    (asking first 0).asks ∧ (asking second 1).asks := by
  decide +kernel

/-- The issuer has given a token by such a deed. -/
theorem answered_asking {w : TokenTraffic TeamWorld} {i : Nat} {token : String}
    (hasks : (asking w i).asks)
    (hissuer : ((team.issuer 0 main).exec w.session).1 = .ok (some (reply token))) :
    (asking w i).Answered (reply token) := by
  have hstage : w.stages i = .issuing := TokenDeed.stage_of_asks hasks
  refine ⟨hstage, ?_⟩
  have hnext := team.stages_act_self w i (call i)
  unfold asking
  dsimp only
  rw [hnext, hstage]
  change TokenStage.weighing w.session.clock.wall ((team.issuer 0 main).exec w.session).1 = _
  rw [hissuer]

theorem issuer_answers : ((team.issuer 0 main).exec first.session).1 = .ok (some (reply "first")) ∧
    ((team.issuer 0 main).exec second.session).1 = .ok (some (reply "second")) := by
  decide +kernel

theorem clock_run : first.session.clock.wall = ⟨1700000000, 0⟩ ∧
    second.session.clock.wall = ⟨1700000000, 0⟩ ∧
    (asking first 0).after.clock.wall = ⟨1700000000, 0⟩ ∧ run.session.clock.wall = ⟨1700000000, 0⟩ := by
  decide +kernel

theorem ends_reply (token : String) : (reply token).Ends ⟨1700000000, 0⟩ ⟨1700086400, 0⟩ := by
  have hissued : (⟨1700000000, 0⟩ : Instant).Regular := show 0 < 1000000000 by decide
  exact (TokenReply.expiresAt?_eq_some_iff hissued).mp rfl

theorem lastIssued_second : TokenTeam.LastIssued second.deeds (asking first 0) ⟨1700086400, 0⟩ := by
  obtain ⟨hlater, -, hasks, -⟩ := asks_deeds
  refine ⟨?_, reply "first", "first", answered_asking hasks issuer_answers.1, rfl, ?_⟩
  · rw [deeds_second, List.find?_append, List.find?_eq_none.mpr ?_, Option.none_or,
      List.find?_cons_of_pos hasks]
    exact fun d hd hd' => by simpa [hd'] using List.all_eq_true.mp hlater d hd
  · change (reply "first").Ends first.session.clock.wall _
    rw [clock_run.1]
    exact ends_reply "first"

theorem ahead_second : TokenTeam.Ahead (asking second 1).before.clock ⟨1700086400, 0⟩ := by
  have hclock : (asking second 1).before.clock.wall = ⟨1700000000, 0⟩ := clock_run.2.1
  unfold TokenTeam.Ahead
  rw [hclock]
  decide

theorem wellAnswered_run : TokenTeam.WellAnswered run.deeds := by
  obtain ⟨hlater, hearlier, hfirst, hsecond⟩ := asks_deeds
  have hlasts : ∀ {w : TokenTraffic TeamWorld} {i : Nat} (token : String),
      w.session.clock.wall = ⟨1700000000, 0⟩ →
      (asking w i).after.clock.wall = ⟨1700000000, 0⟩ →
        (reply token).Lasts (asking w i).before.clock.wall (asking w i).after.clock.wall
          ⟨1700086400, 0⟩ := by
    intro w i token hbefore hafter
    change (reply token).Lasts w.session.clock.wall _ _
    rw [hbefore, hafter]
    exact ⟨ends_reply token, by decide⟩
  obtain ⟨hclock, hclock', hafter, hafter'⟩ := clock_run
  intro d hd hasks
  rw [deeds_run, deeds_second] at hd
  obtain rfl | hd := List.mem_cons.mp hd
  · exact ⟨_, "second", _, answered_asking hsecond issuer_answers.2, rfl,
      hlasts "second" hclock' hafter'⟩
  obtain hd | hd := List.mem_append.mp hd
  · simpa [hasks] using List.all_eq_true.mp hlater d hd
  obtain rfl | hd := List.mem_cons.mp hd
  · exact ⟨_, "first", _, answered_asking hfirst issuer_answers.1, rfl, hlasts "first" hclock hafter⟩
  · simpa [hasks] using List.all_eq_true.mp hearlier d hd

theorem oneAccount : team.OneAccount 0 "5c1a30535187008c" := by
  intro i c hc
  cases (call?_eq i).symm.trans hc
  exact ⟨rfl, rfl⟩

/-- **A store that refuses writing only is not made up for.** Every answer of the issuer leaves a day,
and yet the second call asks it again at once, as every later one does: the token on the desk stands in
for a store that does not answer, and for no other. -/
theorem asks_again : (team.Lawful TeamWorld.texts ∧ team.Retains TeamWorld.texts ∧
      team.OneAccount 0 "5c1a30535187008c") ∧
    ∃ w, team.LeadsInTurn TeamWorld.texts (team.start session) w ∧
      TokenTeam.WellAnswered w.deeds ∧ ¬ TokenTeam.NeverEarly w.deeds := by
  refine ⟨⟨TeamWorld.lawful_team .., TeamWorld.retains_team _ _ _ _ _, oneAccount⟩,
    run, leadsInTurn_run, wellAnswered_run, fun hnever => ?_⟩
  exact hnever [] _ _ deeds_run asks_deeds.2.2.2 _ _ lastIssued_second ahead_second

/-- The store has not taken the token of the first call, and has told the second one that it has
none. -/
theorem asksInNeed_run : team.AsksInNeed 0 run.deeds ∧
    ¬ team.SavedBy second.deeds 0 ∧ team.MissedBy 0 second.deeds 1 := by
  have hregular : session.clock.wall.Regular := show 0 < 1000000000 by decide
  obtain ⟨hneed, -⟩ := TokenTeam.asksInNeed_of_leads (TeamWorld.lawful_team ..)
    (TeamWorld.retains_team _ _ _ _ _) oneAccount hregular (by decide) leadsInTurn_run
  exact ⟨hneed, hneed [] _ _ deeds_run asks_deeds.2.2.2 _ _ lastIssued_second ahead_second⟩

end OneProcess

end DailyBars
