import DailyBars.Collect.Walk
import DailyBars.Proofs.Calendar.DateOrder
import DailyBars.Proofs.Session

/-!
# The steps of a walk

A walk from a cursor does one of five things: its request fails, its page is empty, its page cannot
be stored, its page is the last one, or it goes on from an earlier cursor. There is one equation for
each, and `nextEnd?_eq_some_iff` and `nextEnd?_eq_none` say when the walk goes on. What it logs on
the way changes neither the world nor the clock.
-/

namespace DailyBars.PageSource

variable {σ ρ : Type} {source : PageSource σ ρ} {sink : PageSink σ ρ} {pageSize : Nat}
  {start cursor : Date} {progress : WalkProgress} {page : List ρ} {n : Nat}
  {s s₁ s₂ : Session σ} {e : CollectError}

/-! ### Where the next request ends -/

theorem one_le_fullPage (size : Nat) : 1 ≤ fullPage size := Nat.le_max_right size 1

/-- A walk goes on exactly after a full page, with the day before its oldest row, and only if that
goes back in time and not to before the start. -/
theorem nextEnd?_eq_some_iff {next : { d : Date // d < cursor }} :
    source.nextEnd? pageSize start cursor page = some next ↔
      fullPage pageSize ≤ page.length ∧ source.dayBefore? page = some next.val ∧
        start ≤ next.val := by
  obtain ⟨d, hd⟩ := next
  unfold nextEnd?
  by_cases hfull : page.length < fullPage pageSize
  · simp [hfull, Nat.not_le.mpr hfull]
  · rw [if_neg hfull]
    cases source.dayBefore? page with
    | none => simp
    | some d' =>
        by_cases hback : d' < cursor
        · by_cases hstart : d' < start
          · simp only [hback, hstart, dite_true, if_true, Option.some.injEq]
            constructor
            · intro h
              cases h
            · rintro ⟨-, rfl, h⟩
              exact absurd hstart (Date.not_lt.mpr h)
          · simp only [hback, hstart, dite_true, if_false, Option.some.injEq, Subtype.mk.injEq]
            constructor
            · rintro rfl
              exact ⟨Nat.not_lt.mp hfull, rfl, Date.not_lt.mp hstart⟩
            · exact fun h => h.2.1
        · simp only [hback, dite_false, Option.some.injEq]
          constructor
          · intro h
            cases h
          · rintro ⟨-, rfl, -⟩
            exact absurd hd hback

/-- Where a walk ends after a page, the page is not full, there is no day before it, or that day is
no earlier than the cursor or before the start. -/
theorem nextEnd?_eq_none (h : source.nextEnd? pageSize start cursor page = none) :
    page.length < fullPage pageSize ∨ source.dayBefore? page = none ∨
      ∃ d, source.dayBefore? page = some d ∧ (cursor ≤ d ∨ d < start) := by
  unfold nextEnd? at h
  by_cases hfull : page.length < fullPage pageSize
  · exact .inl hfull
  · rw [if_neg hfull] at h
    cases hd : source.dayBefore? page with
    | none => exact .inr (.inl rfl)
    | some d =>
        refine .inr (.inr ⟨d, rfl, ?_⟩)
        rw [hd] at h
        by_cases hback : d < cursor
        · by_cases hstart : d < start
          · exact .inr hstart
          · simp [hback, hstart] at h
        · exact .inl (Date.not_lt.mp hback)

/-! ### The log -/

@[simp] theorem world_logNext (source : PageSource σ ρ) (pageSize : Nat) (cursor : Date)
    (page : List ρ) (s : Session σ) :
    ((source.logNext pageSize cursor page).exec s).2.world = s.world := by
  unfold logNext
  split
  · split <;> rfl
  · rfl

/-! ### The five steps -/

/-- One step of a walk, as the program has it. -/
theorem exec_walkFrom (source : PageSource σ ρ) (sink : PageSink σ ρ) (pageSize : Nat)
    (start cursor : Date) (progress : WalkProgress) (s : Session σ) :
    Attempt.exec (source.walkFrom sink pageSize start cursor progress) s =
      match Attempt.exec (source.fetch start cursor) s with
      | (.error e, s₁) => (.error e, s₁)
      | (.ok page, s₁) =>
        if page.isEmpty then (.ok { progress with pages := progress.pages + 1 }, s₁)
        else
          match Attempt.exec (sink page) s₁ with
          | (.error e, s₂) => (.error e, s₂)
          | (.ok saved, s₂) =>
            let s₃ := ((source.logNext pageSize cursor page).exec s₂).2
            match source.nextEnd? pageSize start cursor page with
            | none => (.ok ⟨progress.pages + 1, progress.saved + saved⟩, s₃)
            | some next =>
              Attempt.exec (source.walkFrom sink pageSize start next.val
                ⟨progress.pages + 1, progress.saved + saved⟩) s₃ := by
  rw [walkFrom, Attempt.exec_bind]
  rcases Attempt.exec (source.fetch start cursor) s with ⟨r, s₁⟩
  cases r with
  | error e => rfl
  | ok page =>
      dsimp only
      split
      · rfl
      · rw [Attempt.exec_bind]
        rcases Attempt.exec (sink page) s₁ with ⟨r, s₂⟩
        cases r with
        | error e => rfl
        | ok saved =>
            dsimp only
            rw [Attempt.exec_bind, Attempt.exec_ofAct]
            dsimp only
            cases source.nextEnd? pageSize start cursor page <;> rfl

theorem walkFrom_fetch_error (hfetch : Attempt.exec (source.fetch start cursor) s = (.error e, s₁)) :
    Attempt.exec (source.walkFrom sink pageSize start cursor progress) s = (.error e, s₁) := by
  rw [exec_walkFrom, hfetch]

theorem walkFrom_empty (hfetch : Attempt.exec (source.fetch start cursor) s = (.ok [], s₁)) :
    Attempt.exec (source.walkFrom sink pageSize start cursor progress) s =
      (.ok { progress with pages := progress.pages + 1 }, s₁) := by
  rw [exec_walkFrom, hfetch]
  rfl

theorem walkFrom_sink_error (hfetch : Attempt.exec (source.fetch start cursor) s = (.ok page, s₁))
    (hpage : page ≠ []) (hsink : Attempt.exec (sink page) s₁ = (.error e, s₂)) :
    Attempt.exec (source.walkFrom sink pageSize start cursor progress) s = (.error e, s₂) := by
  rw [exec_walkFrom, hfetch]
  simp [hpage, hsink]

theorem walkFrom_last (hfetch : Attempt.exec (source.fetch start cursor) s = (.ok page, s₁))
    (hpage : page ≠ []) (hsink : Attempt.exec (sink page) s₁ = (.ok n, s₂))
    (hnext : source.nextEnd? pageSize start cursor page = none) :
    Attempt.exec (source.walkFrom sink pageSize start cursor progress) s =
      (.ok ⟨progress.pages + 1, progress.saved + n⟩,
        ((source.logNext pageSize cursor page).exec s₂).2) := by
  rw [exec_walkFrom, hfetch]
  simp [hpage, hsink, hnext]

theorem walkFrom_next {next : { d : Date // d < cursor }}
    (hfetch : Attempt.exec (source.fetch start cursor) s = (.ok page, s₁))
    (hpage : page ≠ []) (hsink : Attempt.exec (sink page) s₁ = (.ok n, s₂))
    (hnext : source.nextEnd? pageSize start cursor page = some next) :
    Attempt.exec (source.walkFrom sink pageSize start cursor progress) s =
      Attempt.exec (source.walkFrom sink pageSize start next.val
        ⟨progress.pages + 1, progress.saved + n⟩)
        ((source.logNext pageSize cursor page).exec s₂).2 := by
  rw [exec_walkFrom, hfetch]
  simp [hpage, hsink, hnext]

end DailyBars.PageSource
