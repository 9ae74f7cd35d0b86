import DailyBars.Proofs.Collect.Ends
import DailyBars.Rehearsal.Market

/-!
# Two visits to the same instrument

Two worlds are compared from the point of view of one instrument. As long as every call that a visit
makes for it comes to the same in both, and leaves them such that the next one does too, the visit
asks the broker the same questions in both worlds, ends in the same way, and adds the same to what is
committed, whatever else is different between them.
-/

namespace DailyBars

variable {σ ε ε' α β : Type} {ledger : σ → Ledger} {requests : σ → List PriceRequest}

/-! ### Programs that come to the same -/

/-- Two runs of a program come to the same result. After a success the worlds stand in the one
relation, after a failure in the other. -/
inductive Agree (R E : σ → σ → Prop) :
    Except ε α × Session σ → Except ε α × Session σ → Prop where
  | ok {a : α} {t t' : Session σ} : R t.world t'.world → Agree R E (.ok a, t) (.ok a, t')
  | error {e : ε} {t t' : Session σ} : E t.world t'.world → Agree R E (.error e, t) (.error e, t')

/-- From worlds in a relation the attempt comes to the same. -/
def Attempt.Agrees (R E : σ → σ → Prop) (x : Attempt σ ε α) : Prop :=
  ∀ s s', R s.world s'.world → Agree R E (x.exec s) (x.exec s')

namespace Agree

variable {R R' E E' : σ → σ → Prop} {x : Attempt σ ε α} {s s' t : Session σ} {a : α} {e : ε}

theorem exec_ok (h : Agree R E (x.exec s) (x.exec s')) (hx : x.exec s = (.ok a, t)) :
    ∃ t', x.exec s' = (.ok a, t') ∧ R t.world t'.world := by
  rw [hx] at h
  generalize x.exec s' = p at h
  cases h with
  | ok hrel => exact ⟨_, rfl, hrel⟩

/-- What else is known of the two runs can be added to what they come to. -/
theorem imp (h : Agree R E (x.exec s) (x.exec s'))
    (hok : ∀ a t t', x.exec s = (.ok a, t) → x.exec s' = (.ok a, t') → R t.world t'.world →
      R' t.world t'.world)
    (herror : ∀ e t t', x.exec s = (.error e, t) → x.exec s' = (.error e, t') →
      E t.world t'.world → E' t.world t'.world) : Agree R' E' (x.exec s) (x.exec s') := by
  generalize hrun : x.exec s = p at h
  generalize hrun' : x.exec s' = p' at h
  cases h with
  | ok hrel => exact .ok (hok _ _ _ hrun hrun' hrel)
  | error hrel => exact .error (herror _ _ _ hrun hrun' hrel)

theorem bind {f : α → Attempt σ ε β} (hx : Agree R E (x.exec s) (x.exec s'))
    (hf : ∀ a t t', R t.world t'.world → Agree R' E ((f a).exec t) ((f a).exec t')) :
    Agree R' E ((x >>= f).exec s) ((x >>= f).exec s') := by
  rw [Attempt.exec_bind, Attempt.exec_bind]
  generalize x.exec s = p at hx
  generalize x.exec s' = p' at hx
  cases hx with
  | ok hrel => exact hf _ _ _ hrel
  | error hrel => exact .error hrel

theorem orElseAs (f : ε → ε') (hx : Agree R E (x.exec s) (x.exec s')) :
    Agree R E ((x.orElseAs f).exec s) ((x.orElseAs f).exec s') := by
  rw [Attempt.exec_orElseAs, Attempt.exec_orElseAs]
  generalize x.exec s = p at hx
  generalize x.exec s' = p' at hx
  cases hx with
  | ok hrel => exact .ok hrel
  | error hrel => exact .error hrel

theorem onFailure {cleanUp : ε → Act σ Unit} (hx : Agree R E (x.exec s) (x.exec s'))
    (hclean : ∀ e t t', E t.world t'.world →
      E' ((cleanUp e).exec t).2.world ((cleanUp e).exec t').2.world) :
    Agree R E' ((x.onFailure cleanUp).exec s) ((x.onFailure cleanUp).exec s') := by
  rw [Attempt.exec_onFailure, Attempt.exec_onFailure]
  generalize x.exec s = p at hx
  generalize x.exec s' = p' at hx
  cases hx with
  | ok hrel => exact .ok hrel
  | error hrel => exact .error (hclean _ _ _ hrel)

end Agree

theorem Attempt.inherited_agrees {R E : σ → σ → Prop} :
    Attempt.Inherited fun _ _ (x : Attempt σ _ _) => x.Agrees R E where
  pure _ _ _ hrel := .ok hrel
  quiet x hx s s' hrel := by
    rw [exec_ofAct, exec_ofAct]
    refine .ok ?_
    rw [hx.world s, hx.world s']
    exact hrel
  orElseAs f hx s s' hrel := (hx s s' hrel).orElseAs f
  bind hx hf s s' hrel := (hx s s' hrel).bind fun a t t' hrel' => hf a t t' hrel'

namespace Batch

variable {b : Batch σ} {i : Instrument} {alike : σ → σ → Prop} {job : Job} {start last : Date}
  {s s' t t' : Session σ} {asked asked' : List PriceRequest}

/-! ### What is assumed of the calls for an instrument -/

/-- In worlds that are alike, every call of a visit to the instrument comes to the same once its
transaction is open, and leaves them alike if it succeeds. What is saved are the same rows. -/
structure AnswersAlike (b : Batch σ) (ledger : σ → Ledger) (i : Instrument) (alike : σ → σ → Prop) :
    Prop where
  prices : ∀ key, i.key? = some key → ∀ endpoint first last,
    (b.prices endpoint key first last).Agrees alike fun _ _ => True
  existingDates : ∀ key, i.key? = some key → ∀ first last,
    (b.store.existingDates key first last).Agrees alike fun _ _ => True
  saveAll : ∀ key, i.key? = some key → ∀ bars,
    (b.store.saveAll key bars).Agrees alike fun _ _ => True
  rows : ∀ key, i.key? = some key → ∀ bars s s' n t t', alike s.world s'.world →
    (b.store.saveAll key bars).exec s = (.ok n, t) →
    (b.store.saveAll key bars).exec s' = (.ok n, t') →
    ∃ rows, ledger t.world = (ledger s.world).addRows rows ∧
      ledger t'.world = (ledger s'.world).addRows rows
  markCompleted : (b.store.markCompleted i.id).Agrees alike fun _ _ => True
  commit : ∀ s s', alike s.world s'.world →
    Agree (fun _ _ => True) (fun _ _ => True) (b.store.commit.exec s) (b.store.commit.exec s')

/-- From here on the broker and the store behave the same for the instrument: opening a transaction
comes to the same, and leads to worlds in which all the calls for it do. -/
def BehavesAlike (b : Batch σ) (ledger : σ → Ledger) (i : Instrument) (s s' : Session σ) : Prop :=
  ∃ alike, b.AnswersAlike ledger i alike ∧
    Agree alike (fun _ _ => True) (b.store.begin.exec s) (b.store.begin.exec s')

/-- The world keeps a record of the questions that the broker is asked. -/
structure Records (b : Batch σ) (requests : σ → List PriceRequest) : Prop where
  prices : ∀ endpoint key first last s, requests ((b.prices endpoint key first last).exec s).2.world =
    requests s.world ++ [⟨endpoint, key, first, last⟩]
  begin : ∀ s, requests (b.store.begin.exec s).2.world = requests s.world
  existingDates : ∀ key first last s,
    requests ((b.store.existingDates key first last).exec s).2.world = requests s.world
  saveAll : ∀ key bars s, requests ((b.store.saveAll key bars).exec s).2.world = requests s.world
  markCompleted : ∀ id s, requests ((b.store.markCompleted id).exec s).2.world = requests s.world
  commit : ∀ s, requests (b.store.commit.exec s).2.world = requests s.world
  rollback : ∀ s, requests (b.store.rollback.exec s).2.world = requests s.world

/-! ### Inside the transaction -/

/-- The broker has been asked the same questions since. -/
def AskedAlike (requests : σ → List PriceRequest) (asked asked' : List PriceRequest) (w w' : σ) :
    Prop :=
  ∃ new, requests w = asked ++ new ∧ requests w' = asked' ++ new

/-- The same question more, or none. -/
theorem AskedAlike.exec {x : Attempt σ ε α} (new : List PriceRequest)
    (hasked : ∀ s, requests (x.exec s).2.world = requests s.world ++ new)
    (h : AskedAlike requests asked asked' s.world s'.world) :
    AskedAlike requests asked asked' (x.exec s).2.world (x.exec s').2.world := by
  obtain ⟨before, hbefore, hbefore'⟩ := h
  refine ⟨before ++ new, ?_, ?_⟩
  · rw [hasked, hbefore, List.append_assoc]
  · rw [hasked, hbefore', List.append_assoc]

/-- What comes to the same, and asks the same question more or none, has the broker asked alike. -/
theorem agree_asked {x : Attempt σ ε α} {R R' E : σ → σ → Prop} (new : List PriceRequest)
    (hx : Agree R E (x.exec s) (x.exec s'))
    (hasked : ∀ s, requests (x.exec s).2.world = requests s.world ++ new)
    (h : AskedAlike requests asked asked' s.world s'.world)
    (hok : ∀ a t t', x.exec s = (.ok a, t) → x.exec s' = (.ok a, t') → R t.world t'.world →
      AskedAlike requests asked asked' t.world t'.world → R' t.world t'.world) :
    Agree R' (AskedAlike requests asked asked') (x.exec s) (x.exec s') := by
  have hquestions := h.exec new hasked
  refine hx.imp (fun a t t' hrun hrun' hrel => ?_) fun e t t' hrun hrun' _ => ?_
  · rw [hrun, hrun'] at hquestions
    exact hok a t t' hrun hrun' hrel hquestions
  · rw [hrun, hrun'] at hquestions
    exact hquestions

/-- In the transactions of the instrument: the next call comes to the same, the drafts are the same,
and so are the questions that the broker was asked. -/
structure Within (ledger : σ → Ledger) (requests : σ → List PriceRequest) (alike : σ → σ → Prop)
    (asked asked' : List PriceRequest) (w w' : σ) : Prop where
  alike : alike w w'
  draft : (ledger w).draft = (ledger w').draft
  asked : AskedAlike requests asked asked' w w'

/-- A call that comes to the same, and does the same to the drafts, does so in the transactions. -/
theorem agrees_within {x : Attempt σ ε α} (new : List PriceRequest)
    (hx : x.Agrees alike fun _ _ => True)
    (hdraft : ∀ s s' a t t', alike s.world s'.world →
      (ledger s.world).draft = (ledger s'.world).draft →
      x.exec s = (.ok a, t) → x.exec s' = (.ok a, t') →
      (ledger t.world).draft = (ledger t'.world).draft)
    (hasked : ∀ s, requests (x.exec s).2.world = requests s.world ++ new) :
    x.Agrees (Within ledger requests alike asked asked') (AskedAlike requests asked asked') :=
  fun s s' hwithin => agree_asked new (hx s s' hwithin.alike) hasked hwithin.asked
    fun a t t' hrun hrun' halike hquestions =>
      ⟨halike, hdraft s s' a t t' hwithin.alike hwithin.draft hrun hrun', hquestions⟩

/-- What a call does to the ledger it does to the draft. -/
theorem draft_eq_of_actsOn {x : Attempt σ ε α} {f : Ledger → Ledger} (hx : x.ActsOn ledger f)
    (hf : ∀ l l', l.draft = l'.draft → (f l).draft = (f l').draft) {a : α}
    (hsame : (ledger s.world).draft = (ledger s'.world).draft) (hrun : x.exec s = (.ok a, t))
    (hrun' : x.exec s' = (.ok a, t')) : (ledger t.world).draft = (ledger t'.world).draft := by
  rw [hx.ok s a t hrun, hx.ok s' a t' hrun']
  exact hf _ _ hsame

section Visit

variable (laws : b.Transactional ledger) (records : b.Records requests)

include laws records

theorem agrees_gather (answers : b.AnswersAlike ledger i alike) (job : Job) (strategy : Strategy)
    (start last : Date) : (b.gather job strategy i start last).Agrees
      (Within ledger requests alike asked asked') (AskedAlike requests asked asked') := by
  refine gather_inherits Attempt.inherited_agrees ⟨?_, ?_, ?_⟩ ?_ job start last
  · exact fun key hkey endpoint first last => agrees_within [⟨endpoint, key, first, last⟩]
      (answers.prices key hkey endpoint first last)
      (fun s s' a t t' _ => draft_eq_of_actsOn (laws.prices endpoint key first last) fun _ _ h => h)
      (records.prices endpoint key first last)
  · exact fun key hkey first last => agrees_within [] (answers.existingDates key hkey first last)
      (fun s s' a t t' _ =>
        draft_eq_of_actsOn (laws.store.existingDates key first last) fun _ _ h => h)
      (fun s => by rw [records.existingDates, List.append_nil])
  · refine fun key hkey bars => agrees_within [] (answers.saveAll key hkey bars)
      (fun s s' n t t' halike hsame hrun hrun' => ?_)
      (fun s => by rw [records.saveAll, List.append_nil])
    obtain ⟨rows, hrows, hrows'⟩ := answers.rows key hkey bars s s' n t t' halike hrun hrun'
    rw [hrows, hrows']
    exact congrArg (Option.map _) hsame
  · intro s s' hwithin
    rw [Attempt.exec_ofResult, Attempt.exec_ofResult]
    cases strategy.keyOf i with
    | ok key => exact .ok hwithin
    | error e => exact .error hwithin.asked

theorem agrees_work (answers : b.AnswersAlike ledger i alike) (job : Job) (strategy : Strategy)
    (start last : Date) : (b.work job strategy i start last).Agrees
      (Within ledger requests alike asked asked') (AskedAlike requests asked asked') := by
  have inherited : Attempt.Inherited fun _ _ (x : Attempt σ _ _) => x.Agrees
      (Within ledger requests alike asked asked') (AskedAlike requests asked asked') :=
    Attempt.inherited_agrees
  have hgather : (b.gather job strategy i start last).Agrees
      (Within ledger requests alike asked asked') (AskedAlike requests asked asked') :=
    agrees_gather laws records answers job strategy start last
  rw [work_eq]
  cases job with
  | collection => exact hgather
  | backfill =>
      refine inherited.bind hgather fun saved => ?_
      refine inherited.bind (inherited.orElseAs _ ?_) fun _ => inherited.pure saved
      refine agrees_within [] answers.markCompleted (fun s s' a t t' _ => ?_)
        (fun s => by rw [records.markCompleted, List.append_nil])
      exact draft_eq_of_actsOn (laws.store.markCompleted i.id) fun l l' h =>
        congrArg (Option.map _) h

/-- Where the transactions of an instrument are opened alike, they are the same inside. -/
theorem agree_begin (hbegin : Agree alike (fun _ _ => True) (b.store.begin.exec s)
      (b.store.begin.exec s')) :
    Agree (Within ledger requests alike (requests s.world) (requests s'.world))
      (AskedAlike requests (requests s.world) (requests s'.world))
      (b.store.begin.exec s) (b.store.begin.exec s') := by
  have start : AskedAlike requests (requests s.world) (requests s'.world) s.world s'.world :=
    ⟨[], by simp, by simp⟩
  refine agree_asked [] hbegin (fun s => by rw [records.begin, List.append_nil]) start ?_
  intro a t t' hrun hrun' halike hquestions
  refine ⟨halike, ?_, hquestions⟩
  rw [laws.store.begin.ok s a t hrun, laws.store.begin.ok s' a t' hrun']
  rfl

omit laws in
theorem agree_commit (answers : b.AnswersAlike ledger i alike)
    (hwithin : Within ledger requests alike asked asked' s.world s'.world) :
    Agree (AskedAlike requests asked asked') (AskedAlike requests asked asked')
      (b.store.commit.exec s) (b.store.commit.exec s') :=
  agree_asked [] (answers.commit s s' hwithin.alike)
    (fun s => by rw [records.commit, List.append_nil]) hwithin.asked fun _ _ _ _ _ _ h => h

/-- **The transaction of a visit** comes to the same, and asks the broker the same questions. -/
theorem agree_process (halike : b.BehavesAlike ledger i s s') (job : Job) (start last : Date) :
    Agree (AskedAlike requests (requests s.world) (requests s'.world))
      (AskedAlike requests (requests s.world) (requests s'.world))
      ((b.process job i start last).exec s) ((b.process job i start last).exec s') := by
  obtain ⟨alike, answers, hbegin⟩ := halike
  -- A rollback asks nothing either, so what was asked stays the same after a failure.
  have keep {x : Act σ Unit} (hx : ∀ s, requests (x.exec s).2.world = requests s.world)
      {t t' : Session σ}
      (h : AskedAlike requests (requests s.world) (requests s'.world) t.world t'.world) :
      AskedAlike requests (requests s.world) (requests s'.world) (x.exec t).2.world
        (x.exec t').2.world := by
    unfold AskedAlike
    rw [hx t, hx t']
    exact h
  unfold process
  cases hfind : b.strategies.find i.assetType with
  | error cause =>
      exact .error ⟨[], (List.append_nil _).symm, (List.append_nil _).symm⟩
  | ok strategy =>
      rw [Attempt.exec_bind, Attempt.exec_ofResult, Attempt.exec_bind, Attempt.exec_ofResult]
      dsimp only [mapError_ok]
      refine ((agree_begin laws records hbegin).orElseAs _).bind fun _ t t' hwithin => ?_
      refine Agree.onFailure ?_ fun _ t t' hasked => keep records.rollback hasked
      refine (agrees_work laws records answers job strategy start last t t' hwithin).bind ?_
      intro saved t t' hwithin
      refine ((agree_commit records answers hwithin).orElseAs _).bind ?_
      exact fun _ _ _ hasked => .ok hasked

/-- **The transaction of a visit, if it is kept,** adds the same to what is committed. -/
theorem committed_agree (halike : b.BehavesAlike ledger i s s') {saved : Nat}
    (hrun : (b.process job i start last).exec s = (.ok saved, t))
    (hrun' : (b.process job i start last).exec s' = (.ok saved, t')) :
    ∃ ids rows, (ledger t.world).committed =
        (Ledger.flagged ids (ledger s.world).instruments, (ledger s.world).rows ++ rows) ∧
      (ledger t'.world).committed =
        (Ledger.flagged ids (ledger s'.world).instruments, (ledger s'.world).rows ++ rows) := by
  obtain ⟨alike, answers, hbegin⟩ := halike
  obtain ⟨strategy, s₁, s₂, hfind, hopen, hwork, hcommit⟩ := exec_process_ok.mp hrun
  obtain ⟨strategy', s₁', s₂', hfind', hopen', hwork', hcommit'⟩ := exec_process_ok.mp hrun'
  obtain rfl : strategy = strategy' := Except.ok.inj (hfind.symm.trans hfind')
  obtain ⟨_, ho, hwithin⟩ := (agree_begin laws records hbegin).exec_ok hopen
  cases hopen'.symm.trans ho
  obtain ⟨_, hw, hworked⟩ :=
    (agrees_work laws records answers job strategy start last s₁ s₁' hwithin).exec_ok hwork
  cases hwork'.symm.trans hw
  -- Up to the commit nothing committed has changed, and what is added then is the draft.
  have kept {s s₁ s₂ : Session σ} (hopen : b.store.begin.exec s = (.ok (), s₁))
      (hwork : (b.work job strategy i start last).exec s₁ = (.ok saved, s₂)) :
      (ledger s₂.world).committed = (ledger s.world).committed := by
    rw [committed_work laws strategy hwork, laws.store.begin.ok s _ s₁ hopen]
    rfl
  obtain ⟨hinstruments, hrows⟩ := Prod.mk.inj (kept hopen hwork)
  obtain ⟨hinstruments', hrows'⟩ := Prod.mk.inj (kept hopen' hwork')
  refine ⟨((ledger s₂.world).draft.map (·.completed)).getD [],
    ((ledger s₂.world).draft.map (·.rows)).getD [], ?_, ?_⟩
  · rw [laws.store.commit.ok s₂ _ t hcommit, Ledger.committed_commit, hinstruments, hrows]
  · rw [laws.store.commit.ok s₂' _ t' hcommit', Ledger.committed_commit, hinstruments', hrows',
      hworked.draft]

end Visit

end Batch

end DailyBars
