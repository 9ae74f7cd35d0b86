import DailyBars.Proofs.Storage.LockCluster

/-!
# A lock is held by one run at a time

Of all runs under a lock, however their commands and answers are delayed, one at a time does its job,
as long as each ends in the time that the lock may be held; and after a run has taken the lock no
other gets it before the time is over for which it is kept at least, but for a millisecond. Times to
live are whole milliseconds and numbers of 64 bits, so the time that a lock may be held must be such
a number too.
-/

namespace DailyBars

/-! ### The server -/

namespace RedisKeys

variable {s : RedisKeys} {now t : Nat} {name token : String} {k : RedisKey}

theorem name_of_find? (h : s.find? now name = some k) : k.name = name := by
  unfold find? at h
  obtain ⟨hfind, -⟩ := Option.filter_eq_some_iff.mp h
  simpa using List.find?_some hfind

theorem eq_of_find?_insert {k' : RedisKey} (h : (s.insert k).find? now name = some k')
    (hname : name = k.name) : k' = k := by
  rw [find?_insert, if_pos hname] at h
  split at h
  · exact (Option.some.inj h).symm
  · cases h

/-- A key is gone only when its time is over. -/
theorem expired_of_find?_insert (h : (s.insert k).find? now name = none) (hname : name = k.name) :
    k.expiresAt ≤ now := by
  rw [find?_insert, if_pos hname] at h
  by_contra hlt
  rw [if_pos (Nat.lt_of_not_le hlt)] at h
  cases h

/-- Giving a lock back changes the keys only if the key holds the token: then it is gone at once, or
after the hold. -/
theorem release_cases (s : RedisKeys) (now : Nat) (name token : String) (hold : Nat) :
    (s.release now name token hold).2 = s ∨
    ∃ k, s.find? now name = some k ∧ k.value = token ∧
      (s.release now name token hold).2 =
        if hold = 0 then s.erase name else s.insert { k with expiresAt := now + millis hold } := by
  unfold release
  cases hfind : s.find? now name with
  | none => exact .inl rfl
  | some k =>
      by_cases hvalue : k.value = token
      · refine .inr ⟨k, rfl, hvalue, ?_⟩
        simp only [hvalue, ne_eq, not_true_eq_false, if_false]
        split <;> rfl
      · simp [hvalue]

end RedisKeys

/-- Times of whole milliseconds, of which the lock may be held at least one and not less than it is
kept at least. -/
structure LockTerms.WholeMillis (terms : LockTerms) : Prop where
  atMost : ∃ n, 1 ≤ n ∧ terms.atMost = n * 1000000
  atLeast : ∃ n, terms.atLeast = n * 1000000
  atLeast_le : terms.atLeast ≤ terms.atMost

/-- Whole milliseconds that a number of 64 bits can count. -/
structure LockTerms.Countable (terms : LockTerms) : Prop extends terms.WholeMillis where
  atMost_lt : terms.atMost < UInt64.size * 1000000

theorem LockTerms.Countable.millis_redisTtl {terms : LockTerms} (h : terms.Countable) :
    RedisKeys.millis (redisTtl terms.atMost) = terms.atMost := by
  obtain ⟨n, hpos, heq⟩ := h.atMost
  have hlt := h.atMost_lt
  have hdiv : terms.atMost / 1000000 = n := by omega
  have hmin : min n (UInt64.size - 1) = n := Nat.min_eq_left (by omega)
  rw [RedisKeys.millis, redisTtl, hdiv, hmin, Nat.max_eq_right hpos, heq]

theorem LockTerms.Countable.holdMillis_eq {terms : LockTerms} (h : terms.Countable) {hold : Nat}
    (hle : hold ≤ terms.atLeast) : holdMillis hold = hold / 1000000 := by
  have hlt := h.atMost_lt
  have hleast := h.atLeast_le
  exact Nat.mod_eq_of_lt (by omega)

theorem RunLock.getD_remainingHold (lock : RunLock) (now : Nat) :
    (lock.remainingHold now).getD 0 = lock.atLeast - (now - lock.acquiredAt) := by
  unfold remainingHold
  dsimp only
  split
  · rename_i h
    rw [h]
    rfl
  · rfl

/-! ### The invariant -/

namespace LockCluster

/-- What holds of the cluster at any time. -/
structure Sound (u : LockSetup) (w : LockCluster) : Prop where
  runs : ∀ i, (w.runs i).Sound u w.now w.taken i
  past : ∀ x ∈ w.taken, x.2 ≤ w.now
  once : (w.taken.map Prod.fst).Nodup
  /-- When a run takes the lock, those before it have nothing to protect any more. -/
  cleared : w.taken.Pairwise fun later earlier => (w.runs earlier.1).Cleared later.2
  /-- The key holds the token of a run only if it was the last to take the lock. -/
  holder : ∀ t k, w.now ≤ t → w.keys.find? t u.key = some k → ∀ i, k.value = u.token i →
    ∃ s rest, w.taken = (i, s) :: rest
  /-- When the key is gone, the run that was the last to take the lock has nothing to protect. -/
  guarded : ∀ i s rest t, w.taken = (i, s) :: rest → w.now ≤ t → w.keys.find? t u.key = none →
    (w.runs i).Cleared t

variable {u : LockSetup} {w w' : LockCluster} {i : Nat} {q : LockRequest} {c : RedisCommand}
  {r : LockRun}

theorem sound_start (u : LockSetup) {now : Nat} {keys : RedisKeys}
    (hforeign : ∀ t k, now ≤ t → keys.find? t u.key = some k → ∀ i, k.value ≠ u.token i) :
    (start now keys).Sound u where
  runs i := LockRun.sound_start u now i
  past := by simp [start]
  once := by simp [start]
  cleared := List.Pairwise.nil
  holder t k ht hfind i hvalue := absurd hvalue (hforeign t k ht hfind i)
  guarded i s rest t htaken := by cases htaken

/-- A step by which no run takes the lock, whatever it does to the keys. -/
theorem Sound.of_taken_eq (h : w.Sound u) (htaken : w'.taken = w.taken) (hnow : w.now ≤ w'.now)
    (hruns : ∀ i, (w'.runs i).Sound u w'.now w'.taken i)
    (hext : ∀ i, (w.runs i).Extends (w'.runs i))
    (hholder : ∀ t k, w'.now ≤ t → w'.keys.find? t u.key = some k → ∀ i, k.value = u.token i →
      ∃ s rest, w.taken = (i, s) :: rest)
    (hguarded : ∀ i s rest t, w.taken = (i, s) :: rest → w'.now ≤ t →
      w'.keys.find? t u.key = none → (w'.runs i).Cleared t) : w'.Sound u where
  runs := hruns
  past x hx := Nat.le_trans (h.past x (htaken ▸ hx)) hnow
  once := htaken ▸ h.once
  cleared := by
    rw [htaken]
    exact h.cleared.imp fun hc => hc.mono (hext _) (Nat.le_refl _)
  holder := by
    rw [htaken]
    exact hholder
  guarded := by
    rw [htaken]
    exact hguarded

/-- A step that changes neither the keys nor who has taken the lock. -/
theorem Sound.of_unchanged (h : w.Sound u) (hkeys : w'.keys = w.keys) (htaken : w'.taken = w.taken)
    (hnow : w.now ≤ w'.now) (hruns : ∀ i, (w'.runs i).Sound u w'.now w'.taken i)
    (hext : ∀ i, (w.runs i).Extends (w'.runs i)) : w'.Sound u := by
  refine h.of_taken_eq htaken hnow hruns hext ?_ ?_
  · intro t k ht hfind i hvalue
    exact h.holder t k (Nat.le_trans hnow ht) (hkeys ▸ hfind) i hvalue
  · intro i s rest t hlast ht hfind
    have hc := h.guarded i s rest t hlast (Nat.le_trans hnow ht) (hkeys ▸ hfind)
    exact hc.mono (hext i) (Nat.le_refl t)

theorem Sound.setRun (h : w.Sound u) (hrun : r.Sound u w.now w.taken i)
    (hext : (w.runs i).Extends r) : (w.setRun i r).Sound u := by
  refine h.of_unchanged rfl rfl (Nat.le_refl _) ?_ ?_
  · intro j
    by_cases hj : j = i
    · subst hj
      simpa [LockCluster.setRun] using hrun
    · simpa [LockCluster.setRun, hj] using h.runs j
  · intro j
    by_cases hj : j = i
    · subst hj
      simpa [LockCluster.setRun] using hext
    · simpa [LockCluster.setRun, hj] using LockRun.Extends.refl _

/-! ### What the server does -/

theorem extends_serve (w : LockCluster) (i : Nat) (q : LockRequest) (c : RedisCommand) (j : Nat) :
    (w.runs j).Extends ((w.serve i q c).runs j) := by
  by_cases hj : j = i
  · subst hj
    simp only [serve, Function.update_self]
    exact ⟨fun _ h => h, fun _ h => h⟩
  · simp only [serve, Function.update_of_ne hj]
    exact LockRun.Extends.refl _

/-- The runs after the server has run a command: at most the run that sent it has taken the lock. -/
theorem Sound.runs_serve (h : w.Sound u) (i : Nat) (q : LockRequest) (c : RedisCommand) (j : Nat) :
    ((w.serve i q c).runs j).Sound u w.now (w.serve i q c).taken j := by
  have htaken : ∀ x ∈ w.taken, x ∈ (w.serve i q c).taken := by
    intro x hx
    unfold serve
    dsimp only
    split
    · exact List.mem_cons_of_mem _ hx
    · exact hx
  by_cases hj : j = i
  · subst hj
    have hsound := (h.runs j).answer q (w.keys.run w.now c).1 htaken
    simp only [serve, Function.update_self] at hsound ⊢
    refine hsound ?_ ?_
    · intro s hs
      split at hs
      · rename_i hacquire
        exact .inr hacquire.1
      · exact .inl hs
    · intro hq htext
      rw [if_pos ⟨hq, htext⟩]
      exact ⟨w.now, Nat.le_refl _, List.mem_cons_self⟩
  · have hsound := (h.runs j).mono (Nat.le_refl w.now) htaken
    simp only [serve, Function.update_of_ne hj] at hsound ⊢
    refine hsound fun s hs => ?_
    split at hs
    · rcases List.mem_cons.mp hs with heq | hs
      · exact absurd (congrArg Prod.fst heq) hj
      · exact hs
    · exact hs

/-- A command that changes no key and gives nobody the lock. -/
theorem Sound.serve_unchanged (h : w.Sound u) (hkeys : (w.keys.run w.now c).2 = w.keys)
    (hno : ¬ (q = .acquire ∧ (w.keys.run w.now c).1.toText?.isSome)) : (w.serve i q c).Sound u := by
  have htaken : (w.serve i q c).taken = w.taken := if_neg hno
  refine h.of_unchanged hkeys htaken (Nat.le_refl _) ?_ (extends_serve w i q c)
  exact h.runs_serve i q c

/-- While the key is gone, no run that has taken the lock has anything to protect. -/
theorem Sound.cleared_of_free (h : w.Sound u) (hfree : w.keys.find? w.now u.key = none) :
    ∀ x ∈ w.taken, (w.runs x.1).Cleared w.now := by
  intro x hx
  cases htaken : w.taken with
  | nil =>
      rw [htaken] at hx
      cases hx
  | cons y rest =>
      rw [htaken] at hx
      rcases List.mem_cons.mp hx with rfl | hx
      · exact h.guarded x.1 x.2 rest w.now htaken (Nat.le_refl _) hfree
      · have hpairs := h.cleared
        rw [htaken] at hpairs
        have hy : y.2 ≤ w.now := h.past y (htaken ▸ List.mem_cons_self)
        exact ((List.pairwise_cons.mp hpairs).1 x hx).mono (LockRun.Extends.refl _) hy

/-- A run takes the lock where the key is gone: those before it have nothing to protect any more. -/
theorem Sound.serve_granted (h : w.Sound u) (distinct : Function.Injective u.token)
    (countable : (u.terms i).Countable) {a : Nat} (ha : a ≤ w.now)
    (hlock : (w.runs i).lock = some (u.lock i a)) (hopen : (w.runs i).answer .acquire = none)
    (hfree : w.keys.find? w.now u.key = none)
    (hrun : w.keys.run w.now c =
      (.status "OK", w.keys.insert ⟨u.key, u.token i, w.now + (u.terms i).atMost⟩)) :
    (w.serve i .acquire c).Sound u := by
  have htaken : (w.serve i .acquire c).taken = (i, w.now) :: w.taken := by
    simp [serve, hrun, RedisReply.toText?]
  have hkeys : (w.serve i .acquire c).keys =
      w.keys.insert ⟨u.key, u.token i, w.now + (u.terms i).atMost⟩ := by
    simp [serve, hrun]
  have hext := extends_serve w i .acquire c
  refine ⟨h.runs_serve i .acquire c, ?_, ?_, ?_, ?_, ?_⟩
  · intro x hx
    rw [htaken] at hx
    rcases List.mem_cons.mp hx with rfl | hx
    · exact Nat.le_refl _
    · exact h.past x hx
  · rw [htaken, List.map_cons, List.nodup_cons]
    refine ⟨fun hmem => ?_, h.once⟩
    -- A run that has taken the lock already has its answer.
    obtain ⟨⟨j, s⟩, hx, rfl⟩ := List.mem_map.mp hmem
    exact (h.runs j).answered s hx hopen
  · rw [htaken, List.pairwise_cons]
    refine ⟨?_, ?_⟩
    · intro x hx
      exact (h.cleared_of_free hfree x hx).mono (hext x.1) (Nat.le_refl _)
    · exact h.cleared.imp fun hcleared => hcleared.mono (hext _) (Nat.le_refl _)
  · intro t k ht hfind j hvalue
    rw [hkeys] at hfind
    have hk := RedisKeys.eq_of_find?_insert hfind rfl
    rw [hk] at hvalue
    obtain rfl := distinct hvalue
    exact ⟨_, _, htaken⟩
  · intro j s rest t hlast ht hgone
    rw [htaken] at hlast
    obtain ⟨⟨rfl, rfl⟩, rfl⟩ : (i = j ∧ w.now = s) ∧ w.taken = rest := by simpa using hlast
    rw [hkeys] at hgone
    -- The run counts from when it read the clock, the server from now, which is no earlier.
    have hover : w.now + (u.terms i).atMost ≤ t := RedisKeys.expired_of_find?_insert hgone rfl
    have hleast := countable.atLeast_le
    refine ⟨u.lock i a, (hext i).lock _ hlock, .inr ?_, ?_⟩
    · change a + (u.terms i).atMost ≤ t
      omega
    · change a + (u.terms i).atLeast < t + 1000000
      omega

/-- The server runs a request for the lock. -/
theorem Sound.serve_acquire (h : w.Sound u) (distinct : Function.Injective u.token)
    (countable : ∀ i, (u.terms i).Countable) (hsent : (w.runs i).sent .acquire = some c)
    (hopen : (w.runs i).answer .acquire = none) : (w.serve i .acquire c).Sound u := by
  obtain ⟨lock, hlock, rfl⟩ := (h.runs i).commands .acquire c hsent
  obtain ⟨a, ha, rfl⟩ := (h.runs i).lock lock hlock
  have hrun : w.keys.run w.now
      (.setIfAbsent u.key (u.lock i a).token (redisTtl (u.lock i a).atMost)) =
      if (w.keys.find? w.now u.key).isSome then (.nil, w.keys)
      else (.status "OK", w.keys.insert
        ⟨u.key, u.token i, w.now + RedisKeys.millis (redisTtl (u.terms i).atMost)⟩) := rfl
  rw [(countable i).millis_redisTtl] at hrun
  by_cases hheld : (w.keys.find? w.now u.key).isSome
  · rw [if_pos hheld] at hrun
    refine h.serve_unchanged (by rw [hrun]) ?_
    rw [hrun]
    simp [RedisReply.toText?]
  · rw [if_neg hheld] at hrun
    exact h.serve_granted distinct (countable i) ha hlock hopen (by simpa using hheld) hrun

/-- What is left of the time for which a lock is kept at least, once the run has told the server: the
server keeps the key that long, but for the part of a millisecond. -/
theorem cleared_after_hold {terms : LockTerms} (hterms : terms.Countable) {lock : RunLock}
    {now t hold : Nat} (hlock : r.lock = some lock) (hleast : lock.atLeast = terms.atLeast)
    (hholds : r.Holds now lock hold) (ht : now + RedisKeys.millis (holdMillis hold) ≤ t) :
    r.Cleared t := by
  obtain ⟨e, read, hended, her, hafter, hread, rfl⟩ := hholds
  rw [RunLock.getD_remainingHold, hterms.holdMillis_eq (by omega)] at ht
  unfold RedisKeys.millis at ht
  refine ⟨lock, hlock, .inl ⟨e, ?_, hended⟩, ?_⟩
  · omega
  · omega

/-- The server runs the script that gives a lock back. It changes the key only of the run that was
the last to take the lock, and that run has nothing to protect from when its key is gone. -/
theorem Sound.serve_release (h : w.Sound u) (countable : ∀ i, (u.terms i).Countable)
    (hq : q ≠ .acquire) {lock : RunLock} {hold : Nat} (hlock : (w.runs i).lock = some lock)
    (hholds : (w.runs i).Holds w.now lock hold) :
    (w.serve i q (.release u.key lock.token (holdMillis hold))).Sound u := by
  have hno : ¬ (q = .acquire ∧ (w.keys.run w.now
      (.release u.key lock.token (holdMillis hold))).1.toText?.isSome) := fun hacquire =>
    hq hacquire.1
  have hrun : (w.keys.run w.now (.release u.key lock.token (holdMillis hold))).2 =
      (w.keys.release w.now u.key lock.token (holdMillis hold)).2 := rfl
  rcases w.keys.release_cases w.now u.key lock.token (holdMillis hold) with
    hsame | ⟨k, hfind, hvalue, hafter⟩
  · exact h.serve_unchanged (hrun.trans hsame) hno
  · obtain ⟨a, ha, rfl⟩ := (h.runs i).lock lock hlock
    -- The key holds the token of the run, so nobody has taken the lock after it.
    obtain ⟨s, rest, hlast⟩ := h.holder w.now k (Nat.le_refl _) hfind i hvalue
    generalize hc : RedisCommand.release u.key (u.lock i a).token (holdMillis hold) = c at hno hrun ⊢
    have htaken : (w.serve i q c).taken = w.taken := if_neg hno
    have hkeys : (w.serve i q c).keys = if holdMillis hold = 0 then w.keys.erase u.key
        else w.keys.insert { k with expiresAt := w.now + RedisKeys.millis (holdMillis hold) } :=
      hrun.trans hafter
    have hname : u.key = k.name := (RedisKeys.name_of_find? hfind).symm
    have hext := extends_serve w i q c
    refine h.of_taken_eq htaken (Nat.le_refl _) (h.runs_serve i q c) hext ?_ ?_
    · intro t k' ht hfind' j hvalue'
      rw [hkeys] at hfind'
      split at hfind'
      · rw [RedisKeys.find?_erase, if_pos rfl] at hfind'
        cases hfind'
      · obtain rfl := RedisKeys.eq_of_find?_insert hfind' hname
        exact h.holder w.now k (Nat.le_refl _) hfind j hvalue'
    · intro j s' rest' t hlast' ht hgone
      obtain ⟨⟨rfl, rfl⟩, rfl⟩ : (j = i ∧ s' = s) ∧ rest' = rest := by
        simpa using hlast'.symm.trans hlast
      -- From now on the key lives for the hold, or not at all where there is none.
      have hover : w.now + RedisKeys.millis (holdMillis hold) ≤ t := by
        rw [hkeys] at hgone
        split at hgone
        · rename_i hzero
          rw [hzero]
          exact ht
        · exact RedisKeys.expired_of_find?_insert hgone hname
      exact (cleared_after_hold (countable j) hlock rfl hholds hover).mono (hext j) (Nat.le_refl t)

/-- **Every step keeps the invariant.** -/
theorem Sound.step (h : w.Sound u) (distinct : Function.Injective u.token)
    (countable : ∀ i, (u.terms i).Countable) (hstep : LockStep u w w') : w'.Sound u := by
  cases hstep with
  | pass nanos =>
      refine h.of_unchanged rfl rfl (Nat.le_add_right _ _) ?_ fun i => LockRun.Extends.refl _
      exact fun i => (h.runs i).mono (Nat.le_add_right _ _) (fun _ hx => hx) fun _ hs => hs
  | begin i hstage =>
      have hbegin := (h.runs i).begin hstage
      exact h.setRun hbegin.1 hbegin.2
  | serve i q c hsent hopen =>
      cases q with
      | acquire => exact h.serve_acquire distinct countable hsent hopen
      | load =>
          obtain rfl : c = .loadRelease := (h.runs i).commands .load c hsent
          exact h.serve_unchanged rfl fun hacquire => by cases hacquire.1
      | release | releaseAgain =>
          obtain ⟨lock, hold, hlock, hholds, rfl⟩ := (h.runs i).commands _ c hsent
          exact h.serve_release countable (by simp) hlock hholds
  | reply i q r hwaits hanswer =>
      have hreceive := (h.runs i).receive (.ok r) (by rw [hwaits]; rfl) ?_
      · exact h.setRun hreceive.1 hreceive.2
      · -- What the server granted it answered to this run, so the run is among those that took it.
        intro a hacquire hr htext
        cases hwaits.symm.trans hacquire
        cases hr
        exact (h.runs i).granted _ hanswer htext
  | fail i e hwaits =>
      have hreceive := (h.runs i).receive (.error e) hwaits ?_
      · exact h.setRun hreceive.1 hreceive.2
      · intro a _ hr
        cases hr
  | finish i lock hstage =>
      have hfinish := (h.runs i).finish hstage
      exact h.setRun hfinish.1 hfinish.2
  | release i lock hstage =>
      exact h.setRun ((h.runs i).release hstage) (LockRun.extends_enter _ _ _)

theorem Sound.leads (h : w.Sound u) (distinct : Function.Injective u.token)
    (countable : ∀ i, (u.terms i).Countable) (hleads : Leads u w w') : w'.Sound u := by
  induction hleads with
  | refl => exact h
  | tail _ hstep ih => exact ih.step distinct countable hstep

/-! ### Exclusion -/

/-- The job of a run has ended at a given time, before the lock could expire. -/
def EndedInTime (w : LockCluster) (i stop : Nat) : Prop :=
  (w.runs i).endedAt = some stop ∧
    ∃ lock, (w.runs i).lock = some lock ∧ stop ≤ lock.acquiredAt + lock.atMost

/-- The jobs of two runs do not overlap, if both end in time. -/
def Apart (w : LockCluster) (i j : Nat) : Prop :=
  ∀ start stop start' stop', (w.runs i).startedAt = some start → w.EndedInTime i stop →
    (w.runs j).startedAt = some start' → w.EndedInTime j stop' → stop ≤ start' ∨ stop' ≤ start

theorem Apart.symm {i j : Nat} (h : w.Apart i j) : w.Apart j i :=
  fun start stop start' stop' hstart hstop hstart' hstop' =>
    (h start' stop' start stop hstart' hstop' hstart hstop).symm

/-- What a lock is for. -/
structure Excludes (w : LockCluster) : Prop where
  /-- A job begins only after its run has taken the lock. -/
  taken : ∀ i t, (w.runs i).startedAt = some t → ∃ s ≤ t, (i, s) ∈ w.taken
  /-- The job of a run that takes the lock later begins no earlier than the job of one before it ends,
  if that one ends in time. -/
  ordered : w.taken.Pairwise fun later earlier => ∀ stop t,
    w.EndedInTime earlier.1 stop → (w.runs later.1).startedAt = some t → stop ≤ t
  /-- Jobs that end in time do not overlap. -/
  apart : ∀ i j, i ≠ j → w.Apart i j
  /-- After a run has taken the lock, no other takes it before the time is over for which it is kept
  at least, but for less than a millisecond. -/
  kept : w.taken.Pairwise fun later earlier => ∀ lock, (w.runs earlier.1).lock = some lock →
    lock.acquiredAt + lock.atLeast < later.2 + 1000000

theorem Sound.ordered (h : w.Sound u) :
    w.taken.Pairwise fun later earlier => ∀ stop t,
      w.EndedInTime earlier.1 stop → (w.runs later.1).startedAt = some t → stop ≤ t := by
  refine h.cleared.imp_of_mem ?_
  rintro ⟨j, s⟩ ⟨i, s₀⟩ hlater - ⟨lock, hlock, hover, -⟩ stop t ⟨hended, lock', hlock', hstop⟩ hstarted
  cases hlock.symm.trans hlock'
  obtain ⟨s', hs', hmem⟩ := (h.runs j).started t hstarted
  obtain ⟨-, rfl⟩ := Prod.mk.inj (List.inj_on_of_nodup_map h.once hmem hlater rfl)
  rcases hover with ⟨e, he, hended'⟩ | hmost
  · cases hended.symm.trans hended'
    exact Nat.le_trans he hs'
  · exact Nat.le_trans hstop (Nat.le_trans hmost hs')

theorem Sound.excludes (h : w.Sound u) : w.Excludes := by
  refine ⟨fun i => (h.runs i).started, h.ordered, ?_, ?_⟩
  · -- Of two runs that have taken the lock one was the earlier.
    have hapart : w.taken.Pairwise fun x y => w.Apart x.1 y.1 :=
      h.ordered.imp fun hxy start stop start' stop' hstart _ _ hstop' =>
        .inr (hxy stop' start hstop' hstart)
    have hsymm : Std.Symm fun x y : Nat × Nat => w.Apart x.1 y.1 := ⟨fun _ _ hxy => hxy.symm⟩
    intro i j hij start stop start' stop' hstart hstop hstart' hstop'
    obtain ⟨s, -, hi⟩ := (h.runs i).started start hstart
    obtain ⟨s', -, hj⟩ := (h.runs j).started start' hstart'
    have hne : (i, s) ≠ (j, s') := fun heq => hij (congrArg Prod.fst heq)
    exact hapart.forall hi hj hne start stop start' stop' hstart hstop hstart' hstop'
  · refine h.cleared.imp ?_
    rintro later earlier ⟨lock, hlock, -, hleast⟩ lock' hlock'
    cases hlock.symm.trans hlock'
    exact hleast

/-- **A lock is held by one run at a time.** However the runs under a lock are interleaved, and
however long their commands and answers take or fail to come: a job begins only after its run has
taken the lock, jobs that end in time do not overlap, and after a run has taken the lock no other
takes it before the time is over for which it is kept at least. The stages of a run, one after the
other, are the program. -/
theorem excludes_of_leads (u : LockSetup) (distinct : Function.Injective u.token)
    (countable : ∀ i, (u.terms i).Countable) {now : Nat} {keys : RedisKeys}
    (hforeign : ∀ t k, now ≤ t → keys.find? t u.key = some k → ∀ i, k.value ≠ u.token i)
    {w : LockCluster} (hleads : Leads u (start now keys) w) :
    w.Excludes ∧ ∀ (σ α : Type) (c : RedisCache σ) (holder : String) (freshId : Act σ String)
      (i : Nat) (job : Act σ α) (s : Session σ),
      let run := (c.locks holder freshId).runLocked u.name (u.terms i) job
      Act.exec (LockStage.starting.follow c holder freshId u.name (u.terms i) job 7) s =
        (.finished (Act.exec run s).1, (Act.exec run s).2) :=
  ⟨((sound_start u hforeign).leads distinct countable hleads).excludes,
    fun _ _ c holder freshId i job s =>
      LockStage.follow_starting c holder freshId u.name (u.terms i) job s⟩

/-! ### Two runs, step by step -/

theorem runs_setRun_self (w : LockCluster) (i : Nat) (r : LockRun) : (w.setRun i r).runs i = r :=
  Function.update_self ..

theorem runs_setRun_of_ne (w : LockCluster) {i j : Nat} (r : LockRun) (h : j ≠ i) :
    (w.setRun i r).runs j = w.runs j := Function.update_of_ne h ..

/-- Runs of different tokens on the same terms. -/
def setupOn (terms : LockTerms) : LockSetup :=
  ⟨"job", "collector:lock:job", fun i => String.ofList (List.replicate i 'a'), fun _ => terms⟩

theorem injective_token_setupOn (terms : LockTerms) : Function.Injective (setupOn terms).token := by
  intro i j h
  have hlists := String.ofList_injective h
  simpa using congrArg List.length hlists

/-- What a run sends for the lock. -/
def request (u : LockSetup) (i : Nat) : RedisCommand :=
  .setIfAbsent u.key (u.token i) (redisTtl (u.terms i).atMost)

/-- A run that has asked for the lock. -/
def asking (u : LockSetup) (w : LockCluster) (i : Nat) : LockCluster :=
  w.setRun i ({ LockRun.start with lock := some (u.lock i w.now) }.enter u.key
    (.acquiring (u.lock i w.now)))

/-- A run asks for the lock, and neither the server nor its answer takes any time. -/
def ask (u : LockSetup) (w : LockCluster) (i : Nat) : LockCluster :=
  let served := (w.asking u i).serve i .acquire (request u i)
  served.setRun i ((served.runs i).receive u.key served.now
    (.ok (w.keys.run w.now (request u i)).1))

theorem leads_ask (hstart : w.runs i = .start) : Leads u w (w.ask u i) := by
  have hbegin : LockStep u w (w.asking u i) := by
    have hstep := LockStep.begin i (u := u) (w := w) (by rw [hstart]; rfl)
    rwa [hstart] at hstep
  have hasking : (w.asking u i).runs i = { LockRun.start with lock := some (u.lock i w.now) }.enter
      u.key (.acquiring (u.lock i w.now)) := Function.update_self ..
  have hserve : LockStep u (w.asking u i) ((w.asking u i).serve i .acquire (request u i)) := by
    refine .serve i .acquire (request u i) ?_ ?_
    · rw [hasking]
      rfl
    · rw [hasking]
      rfl
  have hserved : (((w.asking u i).serve i .acquire (request u i)).runs i).answer .acquire =
      some (w.keys.run w.now (request u i)).1 := by
    simp [serve, asking, setRun]
  have hwaits : (((w.asking u i).serve i .acquire (request u i)).runs i).stage.request? =
      some .acquire := by
    simp [serve, asking, setRun, LockRun.enter, LockStage.request?]
  have hreply := LockStep.reply i .acquire _ hwaits hserved (u := u)
  exact ((Relation.ReflTransGen.single hbegin).tail hserve).tail hreply

/-- Other runs go on as they were when a run asks for the lock. -/
theorem runs_ask_of_ne (u : LockSetup) (w : LockCluster) {i j : Nat} (h : j ≠ i) :
    (w.ask u i).runs j = w.runs j := by
  simp [ask, serve, asking, setRun, h]

/-- The cluster some time later. -/
def later (w : LockCluster) (nanos : Nat) : LockCluster := { w with now := w.now + nanos }

/-- Two runs, of which the second asks for the lock some time after the first; after some more time
the job of the first one ends. -/
def twoRuns (terms : LockTerms) (wait more : Nat) : LockCluster :=
  let asked := ((((start 0 .empty).ask (setupOn terms) 0).later wait).ask (setupOn terms) 1).later more
  asked.setRun 0 { asked.runs 0 with
    stage := .worked () ((setupOn terms).lock 0 0), endedAt := some asked.now }

theorem leads_twoRuns (terms : LockTerms) (wait more : Nat) :
    Leads (setupOn terms) (start 0 .empty) (twoRuns terms wait more) := by
  let u := setupOn terms
  let first := (start 0 .empty).ask u 0
  let second := (first.later wait).ask u 1
  have hfirst : Leads u (start 0 .empty) first := leads_ask rfl
  have hidle : first.runs 1 = .start := runs_ask_of_ne u (start 0 .empty) Nat.one_ne_zero
  have hsecond : Leads u (first.later wait) second := leads_ask hidle
  have hworking : ((second.later more).runs 0).stage = .working (u.lock 0 0) := by
    have hsame : second.runs 0 = first.runs 0 :=
      runs_ask_of_ne u (first.later wait) Nat.zero_ne_one
    change (second.runs 0).stage = _
    rw [hsame]
    rfl
  exact (((hfirst.tail (.pass wait)).trans hsecond).tail (.pass more)).tail
    (.finish 0 (u.lock 0 0) hworking)

/-- Two runs on terms of a minute: the second asks while the job of the first one goes on. -/
theorem excludes_twoRuns : (twoRuns ⟨60000000000, 5000000000⟩ 20000000000 10000000000).Excludes := by
  refine (excludes_of_leads (setupOn ⟨60000000000, 5000000000⟩) (injective_token_setupOn _) ?_ ?_
    (leads_twoRuns _ _ _)).1
  · intro i
    change (⟨60000000000, 5000000000⟩ : LockTerms).Countable
    exact ⟨⟨⟨60000, by decide, rfl⟩, ⟨5000, rfl⟩, by decide⟩, by decide⟩
  · intro t k _ hfind
    rw [RedisKeys.find?_empty] at hfind
    cases hfind

/-- A run that asks for a lock that nobody has takes it, and its job begins. -/
theorem ask_of_free (hfree : w.keys.find? w.now u.key = none) :
    (w.ask u i).taken = (i, w.now) :: w.taken ∧
      (w.ask u i).keys = w.keys.insert
        ⟨u.key, u.token i, w.now + RedisKeys.millis (redisTtl (u.terms i).atMost)⟩ ∧
      ((w.ask u i).runs i).lock = some (u.lock i w.now) ∧
      ((w.ask u i).runs i).startedAt = some w.now := by
  have hrun : w.keys.run w.now (request u i) = (.status "OK", w.keys.insert
      ⟨u.key, u.token i, w.now + RedisKeys.millis (redisTtl (u.terms i).atMost)⟩) := by
    simp [request, RedisKeys.run, hfree]
  have htext : (RedisReply.status "OK").toText?.isSome := rfl
  refine ⟨?_, ?_, ?_, ?_⟩
  · simp [ask, serve, asking, setRun, hrun, htext]
  · simp [ask, serve, asking, setRun, hrun]
  · simp [ask, serve, asking, setRun, hrun, htext, LockRun.receive, LockStage.afterReply,
      LockRun.enter, LockStage.request?]
  · simp [ask, serve, asking, setRun, hrun, htext, LockRun.receive, LockStage.afterReply,
      LockRun.enter, LockStage.request?]

/-- If the server does not keep the key for as long as the lock may be held, the job of the second run
begins before that of the first one ends. -/
theorem not_excludes_of_short (terms : LockTerms) (wait more : Nat)
    (hshort : RedisKeys.millis (redisTtl terms.atMost) ≤ wait) (hmore : 0 < more)
    (hintime : wait + more ≤ terms.atMost) : ¬ (twoRuns terms wait more).Excludes := by
  intro hexcludes
  let u := setupOn terms
  let first := (start 0 .empty).ask u 0
  let second := (first.later wait).ask u 1
  obtain ⟨htaken₁, hkeys, hlock, -⟩ : first.taken = [(0, 0)] ∧
      first.keys = RedisKeys.empty.insert
        ⟨u.key, u.token 0, 0 + RedisKeys.millis (redisTtl terms.atMost)⟩ ∧
      (first.runs 0).lock = some (u.lock 0 0) ∧ (first.runs 0).startedAt = some 0 :=
    ask_of_free rfl
  -- The key of the first run is gone when the second one asks.
  have hfree : (first.later wait).keys.find? (first.later wait).now u.key = none := by
    change first.keys.find? (0 + wait) u.key = none
    rw [hkeys, RedisKeys.find?_insert, if_pos rfl, if_neg]
    dsimp only
    omega
  obtain ⟨htaken₂, -, -, hstarted⟩ : second.taken = (1, 0 + wait) :: first.taken ∧
      second.keys = first.keys.insert
        ⟨u.key, u.token 1, 0 + wait + RedisKeys.millis (redisTtl terms.atMost)⟩ ∧
      (second.runs 1).lock = some (u.lock 1 (0 + wait)) ∧
      (second.runs 1).startedAt = some (0 + wait) :=
    ask_of_free hfree
  have hruns₀ : (twoRuns terms wait more).runs 0 = { second.runs 0 with
      stage := .worked () (u.lock 0 0), endedAt := some (0 + wait + more) } :=
    runs_setRun_self _ 0 _
  have hruns₁ : (twoRuns terms wait more).runs 1 = second.runs 1 :=
    runs_setRun_of_ne _ _ Nat.one_ne_zero
  have hsame : second.runs 0 = first.runs 0 :=
    runs_ask_of_ne u (first.later wait) Nat.zero_ne_one
  -- The first run is still within its time, so the second one may not have begun.
  have hended : (twoRuns terms wait more).EndedInTime 0 (0 + wait + more) := by
    refine ⟨?_, u.lock 0 0, ?_, ?_⟩
    · rw [hruns₀]
    · rw [hruns₀, hsame]
      exact hlock
    · change 0 + wait + more ≤ 0 + terms.atMost
      omega
  have hordered := hexcludes.ordered
  change second.taken.Pairwise _ at hordered
  rw [htaken₂, htaken₁] at hordered
  have hle := (List.pairwise_cons.mp hordered).1 (0, 0) (by simp) _ _ hended
    ((congrArg LockRun.startedAt hruns₁).trans hstarted)
  omega

/-- A lock that may be held for more milliseconds than a number of 64 bits can count is not kept that
long: its time to live is the largest of these numbers. -/
theorem not_excludes_of_uncountable :
    ¬ ∀ (u : LockSetup) (w : LockCluster), Function.Injective u.token →
      (∀ i, (u.terms i).WholeMillis) → Leads u (start 0 .empty) w → w.Excludes := by
  intro h
  refine not_excludes_of_short ⟨UInt64.size * 1000000, 0⟩ ((UInt64.size - 1) * 1000000) 1000000
    (by decide) (by decide) (by decide) ?_
  refine h (setupOn _) _ (injective_token_setupOn _) ?_ (leads_twoRuns _ _ _)
  exact fun _ => ⟨⟨UInt64.size, by decide, rfl⟩, ⟨0, rfl⟩, Nat.zero_le _⟩

end LockCluster

end DailyBars
