import DailyBars.Proofs.Collect.Walk
import DailyBars.Proofs.Recorded
import Mathlib.Algebra.GroupWithZero.Nat
import Mathlib.Data.List.Basic

/-!
# The calls of a walk

Whatever the source answers and whatever the sink says, a walk ends: after at most as many requests as
its window has days, or after one. `PageSource.WalkCalls` are the calls that a walk can make, read off
its five steps, and `PageSource.walk_ends` says what they come to.
-/

namespace DailyBars

variable {σ ρ : Type}

/-- A call of a walk, with its answer. -/
inductive WalkCall (ρ : Type) where
  /-- A request for a page of the days from the first to the last. -/
  | fetch (first last : Date) (answer : Except CollectError (List ρ))
  /-- A page given to the sink, which answers with the number of rows that were stored. -/
  | store (page : List ρ) (answer : Except CollectError Nat)

namespace WalkCall

/-- The first and the last day of a request. -/
def request? : WalkCall ρ → Option (Date × Date)
  | fetch first last _ => some (first, last)
  | store _ _ => none

/-- The page that answers a request. -/
def fetched? : WalkCall ρ → Option (List ρ)
  | fetch _ _ (.ok page) => some page
  | _ => none

/-- The page that is given to the sink. -/
def stored? : WalkCall ρ → Option (List ρ)
  | fetch _ _ _ => none
  | store page _ => some page

/-- The number of rows that the sink has stored. -/
def saved : WalkCall ρ → Nat
  | store _ (.ok n) => n
  | _ => 0

/-- The error with which the call was answered. -/
def failure? : WalkCall ρ → Option CollectError
  | fetch _ _ (.error e) | store _ (.error e) => some e
  | _ => none

end WalkCall

namespace PageSource

/-- The source with a record of its requests. -/
def recorded (source : PageSource σ ρ) : PageSource (σ × List (WalkCall ρ)) ρ where
  fetch first last := (source.fetch first last).recorded fun _ answer => .fetch first last answer
  dateOf := source.dateOf

/-- The sink with a record of the pages that it was given. -/
def recordedSink (sink : PageSink σ ρ) : PageSink (σ × List (WalkCall ρ)) ρ := fun page =>
  (sink page).recorded fun _ answer => .store page answer

/-- A walk may go on from a page to a day: the page is full, and the day is the one before its oldest
row, goes back in time and is not before the start. -/
structure GoesOnTo (source : PageSource σ ρ) (pageSize : Nat) (start cursor : Date) (page : List ρ)
    (next : Date) : Prop where
  full : pageSize ≤ page.length
  dayBefore : ∃ r ∈ page, (∀ q ∈ page, source.dateOf r ≤ source.dateOf q) ∧
    next.dayNumber = (source.dateOf r).dayNumber - 1
  earlier : next < cursor
  inWindow : start ≤ next

variable {source : PageSource σ ρ} {sink : PageSink σ ρ} {pageSize : Nat} {start last cursor next : Date}
  {page : List ρ} {calls : List (WalkCall ρ)}

/-- The day before a page is the one before its oldest row. -/
theorem dayBefore?_eq_some_iff : source.dayBefore? page = some next ↔
    ∃ r ∈ page, (∀ q ∈ page, source.dateOf r ≤ source.dateOf q) ∧
      next.dayNumber = (source.dateOf r).dayNumber - 1 := by
  unfold dayBefore?
  constructor
  · intro h
    obtain ⟨oldest, hmin, hpred⟩ := Option.bind_eq_some_iff.mp h
    obtain ⟨r, hr, rfl⟩ := List.mem_map.mp (Date.min?_mem hmin)
    exact ⟨r, hr, fun q hq => Date.min?_le hmin (List.mem_map_of_mem hq), Date.pred?_eq_some.mp hpred⟩
  · rintro ⟨r, hr, holdest, hday⟩
    cases hmin : Date.min? (page.map source.dateOf) with
    | none =>
        rw [List.map_eq_nil_iff.mp (Date.min?_eq_none_iff.mp hmin)] at hr
        cases hr
    | some oldest =>
        obtain ⟨q, hq, rfl⟩ := List.mem_map.mp (Date.min?_mem hmin)
        have hle := Date.min?_le hmin (List.mem_map_of_mem hr)
        rw [Date.le_antisymm (holdest q hq) hle] at hday
        exact Date.pred?_eq_some.mpr hday

theorem goesOnTo_iff : source.GoesOnTo pageSize start cursor page next ↔
    ∃ h : next < cursor, source.nextEnd? pageSize start cursor page = some ⟨next, h⟩ := by
  simp only [nextEnd?_eq_some_iff, dayBefore?_eq_some_iff]
  constructor
  · rintro ⟨hfull, hday, hback, hstart⟩
    have ⟨r, hr, _⟩ := hday
    exact ⟨hback, Nat.max_le.mpr ⟨hfull, List.length_pos_of_mem hr⟩, hday, hstart⟩
  · rintro ⟨hback, hfull, hday, hstart⟩
    exact ⟨(Nat.max_le.mp hfull).1, hday, hback, hstart⟩

/-! ### The calls step by step -/

/-- The calls of a walk from a cursor. -/
inductive WalkCalls (source : PageSource σ ρ) (pageSize : Nat) (start : Date) :
    (cursor : Date) → List (WalkCall ρ) → Prop
  /-- The request fails. -/
  | refused {cursor : Date} {e : CollectError} :
      WalkCalls source pageSize start cursor [.fetch start cursor (.error e)]
  /-- The page is empty. -/
  | empty {cursor : Date} : WalkCalls source pageSize start cursor [.fetch start cursor (.ok [])]
  /-- The page cannot be stored. -/
  | unstored {cursor : Date} {page : List ρ} {e : CollectError} : page ≠ [] →
      WalkCalls source pageSize start cursor
        [.fetch start cursor (.ok page), .store page (.error e)]
  /-- The page is the last one. -/
  | last {cursor : Date} {page : List ρ} {n : Nat} : page ≠ [] →
      (∀ next, ¬ source.GoesOnTo pageSize start cursor page next) →
      WalkCalls source pageSize start cursor [.fetch start cursor (.ok page), .store page (.ok n)]
  /-- The walk goes on after the page. -/
  | next {cursor next : Date} {page : List ρ} {n : Nat} {calls : List (WalkCall ρ)} : page ≠ [] →
      source.GoesOnTo pageSize start cursor page next →
      WalkCalls source pageSize start next calls →
      WalkCalls source pageSize start cursor
        (.fetch start cursor (.ok page) :: .store page (.ok n) :: calls)

/-- What a walk comes to by its calls: the first error, or what it has counted. -/
def resultOf (progress : WalkProgress) (calls : List (WalkCall ρ)) :
    Except CollectError WalkProgress :=
  match calls.findSome? WalkCall.failure? with
  | some e => .error e
  | none => .ok ⟨progress.pages + (calls.filterMap WalkCall.request?).length,
      progress.saved + (calls.map WalkCall.saved).sum⟩

/-- After a page that was stored a walk comes to what it comes to from there. -/
theorem resultOf_next (progress : WalkProgress) (n : Nat) :
    resultOf progress (.fetch start cursor (.ok page) :: .store page (.ok n) :: calls) =
      resultOf ⟨progress.pages + 1, progress.saved + n⟩ calls := by
  unfold resultOf
  simp only [List.findSome?_cons, WalkCall.failure?, List.filterMap_cons, WalkCall.request?,
    List.length_cons, List.map_cons, WalkCall.saved, List.sum_cons, Nat.zero_add]
  cases calls.findSome? WalkCall.failure? with
  | some e => rfl
  | none =>
      dsimp only
      rw [Nat.add_assoc, Nat.add_assoc, Nat.add_comm 1]

theorem exec_fetch_recorded {answer : Except CollectError (List ρ)} {s s' : Session σ}
    (h : (source.fetch start cursor).exec s = (answer, s')) (noted : List (WalkCall ρ)) :
    (source.recorded.fetch start cursor).exec (s.withRecord noted) =
      (answer, s'.withRecord (noted ++ [.fetch start cursor answer])) :=
  Attempt.exec_recorded h (fun _ answer => WalkCall.fetch start cursor answer) noted

theorem exec_sink_recorded {answer : Except CollectError Nat} {s s' : Session σ}
    (h : (sink page).exec s = (answer, s')) (noted : List (WalkCall ρ)) :
    (recordedSink sink page).exec (s.withRecord noted) =
      (answer, s'.withRecord (noted ++ [.store page answer])) :=
  Attempt.exec_recorded h (fun _ answer => WalkCall.store page answer) noted

theorem exec_logNext_withRecord (source : PageSource σ ρ) (pageSize : Nat) (cursor : Date)
    (page : List ρ) (s : Session σ) (calls : List (WalkCall ρ)) :
    (Act.exec (source.recorded.logNext pageSize cursor page) (s.withRecord calls)).2 =
      (Act.exec (source.logNext pageSize cursor page) s).2.withRecord calls := by
  have hday : source.recorded.dayBefore? page = source.dayBefore? page := rfl
  unfold logNext
  rw [hday]
  split
  · split <;> rfl
  · rfl

/-- **A walk makes the calls of a walk**, and comes to what they say. On record it does the same as
without. -/
theorem exec_walkFrom_recorded (source : PageSource σ ρ) (sink : PageSink σ ρ) (pageSize : Nat)
    (start cursor : Date) (progress : WalkProgress) (s : Session σ) :
    ∃ calls s', source.WalkCalls pageSize start cursor calls ∧
      (source.walkFrom sink pageSize start cursor progress).exec s = (resultOf progress calls, s') ∧
      ∀ noted, (source.recorded.walkFrom (recordedSink sink) pageSize start cursor progress).exec
        (s.withRecord noted) = (resultOf progress calls, s'.withRecord (noted ++ calls)) := by
  induction cursor using Date.lt_wellFounded.induction generalizing progress s with
  | _ cursor ih =>
  rcases hfetch : (source.fetch start cursor).exec s with ⟨answer, s₁⟩
  have hfetch' := exec_fetch_recorded hfetch
  cases answer with
  | error e => exact ⟨_, s₁, .refused, walkFrom_fetch_error hfetch, fun noted =>
      walkFrom_fetch_error (hfetch' noted)⟩
  | ok page =>
      by_cases hpage : page = []
      · subst hpage
        exact ⟨_, s₁, .empty, walkFrom_empty hfetch, fun noted => walkFrom_empty (hfetch' noted)⟩
      · rcases hsink : (sink page).exec s₁ with ⟨answer, s₂⟩
        have hsink' := exec_sink_recorded hsink
        cases answer with
        | error e =>
            refine ⟨_, s₂, .unstored hpage, walkFrom_sink_error hfetch hpage hsink, fun noted => ?_⟩
            rw [walkFrom_sink_error (hfetch' noted) hpage (hsink' _), List.append_assoc]
            rfl
        | ok n =>
            have hsame : source.recorded.nextEnd? pageSize start cursor page =
                source.nextEnd? pageSize start cursor page := rfl
            cases hnext : source.nextEnd? pageSize start cursor page with
            | none =>
                have hends (next : Date) : ¬ source.GoesOnTo pageSize start cursor page next := by
                  intro h
                  obtain ⟨hback, hsome⟩ := goesOnTo_iff.mp h
                  cases hnext.symm.trans hsome
                refine ⟨_, (Act.exec (source.logNext pageSize cursor page) s₂).2, .last (n := n) hpage hends,
                  ?_, fun noted => ?_⟩
                · rw [resultOf_next]
                  exact walkFrom_last hfetch hpage hsink hnext
                · rw [walkFrom_last (hfetch' noted) hpage (hsink' _) (hsame.trans hnext),
                    exec_logNext_withRecord, List.append_assoc, resultOf_next]
                  rfl
            | some next =>
                obtain ⟨calls, s', hcalls, hplain, hrecorded⟩ := ih next.val next.property
                  ⟨progress.pages + 1, progress.saved + n⟩
                  (Act.exec (source.logNext pageSize cursor page) s₂).2
                refine ⟨_, s', .next (n := n) hpage (goesOnTo_iff.mpr ⟨next.property, hnext⟩) hcalls,
                  ?_, fun noted => ?_⟩
                · rw [walkFrom_next hfetch hpage hsink hnext, hplain, resultOf_next]
                · rw [walkFrom_next (hfetch' noted) hpage (hsink' _) (hsame.trans hnext),
                    exec_logNext_withRecord, hrecorded, resultOf_next]
                  simp only [List.append_assoc, List.cons_append, List.nil_append]

/-! ### What the calls come to -/

namespace WalkCalls

variable {before after : List (WalkCall ρ)} {call : WalkCall ρ} {first : Date}
  {answer : Except CollectError (List ρ)}

/-- The first request is for the days up to the cursor. -/
theorem head (h : source.WalkCalls pageSize start cursor calls) :
    ∃ answer rest, calls = .fetch start cursor answer :: rest := by
  cases h with
  | refused => exact ⟨_, _, rfl⟩
  | empty => exact ⟨_, _, rfl⟩
  | unstored => exact ⟨_, _, rfl⟩
  | last => exact ⟨_, _, rfl⟩
  | next => exact ⟨_, _, rfl⟩

/-- All requests have the same first day. -/
theorem same_start (h : source.WalkCalls pageSize start cursor calls) :
    ∀ request ∈ calls.filterMap WalkCall.request?, request.1 = start := by
  induction h with
  | refused => simp [WalkCall.request?]
  | empty => simp [WalkCall.request?]
  | unstored => simp [List.filterMap_cons, WalkCall.request?]
  | last => simp [List.filterMap_cons, WalkCall.request?]
  | next _ _ _ ih => simpa [List.filterMap_cons, WalkCall.request?] using ih

/-- There are no more requests than days from the start to the cursor, or there is one. -/
theorem length_requests_le (h : source.WalkCalls pageSize start cursor calls) :
    (calls.filterMap WalkCall.request?).length ≤
      max 1 (cursor.dayNumber - start.dayNumber + 1).toNat := by
  induction h with
  | refused => exact Nat.le_max_left 1 _
  | empty => exact Nat.le_max_left 1 _
  | unstored => exact Nat.le_max_left 1 _
  | last => exact Nat.le_max_left 1 _
  | @next cursor next page n calls _ hgoes _ ih =>
      have hback := Date.lt_iff.mp hgoes.earlier
      have hstart := Date.le_iff.mp hgoes.inWindow
      simp only [List.filterMap_cons, WalkCall.request?, List.length_cons]
      omega

/-- A request after the first comes right after a page that was stored, and is for the days that the
walk may go on to from this page; from there on the calls are those of a walk again. -/
theorem fromRequest (h : source.WalkCalls pageSize start cursor calls)
    (hcalls : calls = before ++ .fetch first next answer :: after) :
    source.WalkCalls pageSize start next (.fetch first next answer :: after) ∧
      (before ≠ [] → ∃ earlier previous page n,
        before = earlier ++ [.fetch start previous (.ok page), .store page (.ok n)] ∧
        source.GoesOnTo pageSize start previous page next) := by
  by_cases hbefore : before = []
  · subst hbefore hcalls
    obtain ⟨_, _, hhead⟩ := h.head
    cases hhead
    exact ⟨h, fun hne => absurd rfl hne⟩
  · induction h generalizing before with
    | refused => simp [List.cons_eq_append_iff, hbefore] at hcalls
    | empty => simp [List.cons_eq_append_iff, hbefore] at hcalls
    | unstored => simp [List.cons_eq_append_iff, hbefore] at hcalls
    | last => simp [List.cons_eq_append_iff, hbefore] at hcalls
    | @next cursor next' page n calls _ hgoes hrest ih =>
        obtain _ | ⟨c, _ | ⟨d, earlier⟩⟩ := before
        · exact absurd rfl hbefore
        · cases hcalls
        · simp only [List.cons_append, List.cons.injEq] at hcalls
          obtain ⟨rfl, rfl, hcalls⟩ := hcalls
          by_cases hearlier : earlier = []
          · -- The request is the first one after the page.
            subst hearlier hcalls
            obtain ⟨_, _, hhead⟩ := hrest.head
            cases hhead
            exact ⟨hrest, fun _ => ⟨[], cursor, page, n, rfl, hgoes⟩⟩
          · obtain ⟨hfrom, hback⟩ := ih hcalls hearlier
            obtain ⟨earlier', previous, page', n', rfl, hgoes'⟩ := hback hearlier
            exact ⟨hfrom, fun _ => ⟨_ :: _ :: earlier', previous, page', n', rfl, hgoes'⟩⟩

/-- After a page that was stored the walk makes the request to which it may go on, if there is one. -/
theorem goesOn (h : source.WalkCalls pageSize start cursor calls) {previous : Date} {n : Nat}
    (hcalls : calls = before ++ .fetch first previous (.ok page) :: .store page (.ok n) :: after)
    (hgoes : source.GoesOnTo pageSize start previous page next) :
    ∃ answer rest, after = .fetch start next answer :: rest := by
  cases (h.fromRequest hcalls).1 with
  | last _ hends => exact absurd hgoes (hends next)
  | @next _ next' _ _ _ _ hgoes' hrest =>
      obtain ⟨answer, rest, rfl⟩ := hrest.head
      obtain ⟨hback', hsome'⟩ := goesOnTo_iff.mp hgoes'
      obtain ⟨hback, hsome⟩ := goesOnTo_iff.mp hgoes
      cases hsome'.symm.trans hsome
      exact ⟨answer, rest, rfl⟩

/-- What is given to the sink are the pages that came, in order, but for empty ones. -/
theorem stored_eq (h : source.WalkCalls pageSize start cursor calls) :
    calls.filterMap WalkCall.stored? =
      (calls.filterMap WalkCall.fetched?).filter fun page => !page.isEmpty := by
  induction h with
  | refused => rfl
  | empty => rfl
  | unstored hpage => simp [List.filterMap_cons, WalkCall.stored?, WalkCall.fetched?, hpage]
  | last hpage => simp [List.filterMap_cons, WalkCall.stored?, WalkCall.fetched?, hpage]
  | next hpage _ _ ih => simp [List.filterMap_cons, WalkCall.stored?, WalkCall.fetched?, hpage, ih]

/-- Nothing is called after an error. -/
theorem failure?_eq_none (h : source.WalkCalls pageSize start cursor calls) :
    ∀ call ∈ calls.dropLast, call.failure? = none := by
  induction h with
  | refused => simp
  | empty => simp
  | unstored => simp [WalkCall.failure?]
  | last => simp [WalkCall.failure?]
  | @next cursor next page n calls _ _ hrest ih =>
      obtain ⟨answer, rest, rfl⟩ := hrest.head
      rw [List.dropLast_cons_cons, List.dropLast_cons_cons]
      simpa [WalkCall.failure?] using ih

end WalkCalls

/-! ### Every walk ends -/

/-- What is asked of the calls of a walk from the last day back to the start. -/
structure IsWalk (source : PageSource σ ρ) (pageSize : Nat) (start last : Date)
    (calls : List (WalkCall ρ)) : Prop where
  /-- There are no more requests than days, or there is one. -/
  requests_le : (calls.filterMap WalkCall.request?).length ≤
    max 1 (last.dayNumber - start.dayNumber + 1).toNat
  /-- The first call is a request for all the days. -/
  firstRequest : ∃ answer rest, calls = .fetch start last answer :: rest
  /-- Every request has the same first day. -/
  sameStart : ∀ request ∈ calls.filterMap WalkCall.request?, request.1 = start
  /-- A later request comes right after a page that was stored, and the walk may go on to it. -/
  laterRequest : ∀ before first next answer after,
    calls = before ++ .fetch first next answer :: after → before ≠ [] →
    ∃ earlier previous page n,
      before = earlier ++ [.fetch start previous (.ok page), .store page (.ok n)] ∧
      source.GoesOnTo pageSize start previous page next
  /-- If the walk may go on from a page that was stored, it does. -/
  goesOn : ∀ before first previous page n after next,
    calls = before ++ .fetch first previous (.ok page) :: .store page (.ok n) :: after →
    source.GoesOnTo pageSize start previous page next →
    ∃ answer rest, after = .fetch start next answer :: rest
  /-- What is given to the sink are the pages that came, in order, but for empty ones. -/
  stored_eq : calls.filterMap WalkCall.stored? =
    (calls.filterMap WalkCall.fetched?).filter fun page => !page.isEmpty
  /-- Only the last call can have failed. -/
  nothingAfterFailure : ∀ call ∈ calls.dropLast, call.failure? = none

theorem WalkCalls.isWalk (h : source.WalkCalls pageSize start last calls) :
    source.IsWalk pageSize start last calls where
  requests_le := h.length_requests_le
  firstRequest := h.head
  sameStart := h.same_start
  laterRequest _ _ _ _ _ hcalls := (h.fromRequest hcalls).2
  goesOn _ _ _ _ _ _ _ hcalls hgoes := h.goesOn hcalls hgoes
  stored_eq := h.stored_eq
  nothingAfterFailure := h.failure?_eq_none

/-- **Every walk ends**, whatever the source and the sink do: its calls are those of a walk, as the
record of a source and a sink that keep one shows, and it comes to their first error, or to the number
of requests and the sum of what the sink has stored. -/
theorem walk_ends (source : PageSource σ ρ) (sink : PageSink σ ρ) (pageSize : Nat)
    (start last : Date) (s : Session σ) :
    ∃ calls s', source.IsWalk pageSize start last calls ∧
      (source.walk sink pageSize start last).exec s = (resultOf ⟨0, 0⟩ calls, s') ∧
      (source.recorded.walk (recordedSink sink) pageSize start last).exec (s.withRecord []) =
        (resultOf ⟨0, 0⟩ calls, s'.withRecord calls) := by
  obtain ⟨calls, s', hcalls, hplain, hrecorded⟩ :=
    exec_walkFrom_recorded source sink pageSize start last ⟨0, 0⟩ s
  exact ⟨calls, s', hcalls.isWalk, hplain, hrecorded []⟩

end PageSource

end DailyBars
