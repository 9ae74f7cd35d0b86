import DailyBars.Proofs.Collect.Atomicity
import DailyBars.Proofs.Collect.Walk

/-!
# The pages that were gathered

Whichever job gathers the prices of an instrument, it does so page by page: it fetches the days up to
a cursor, stores what is new of them, and either is done or goes on from an earlier cursor. A
collection is always done after its first page; a backfill goes on as its walk does. `Batch.Pages` is
an error-free gathering of either job as a relation, with the bars of all its pages and the number of
rows that were saved.
-/

namespace DailyBars

variable {σ : Type}

/-- Storing the new bars of a page asks for the days between its oldest and its newest, and then
stores what is left of the page, if anything is. -/
theorem PriceStore.saveNew_ok {store : PriceStore σ} {key : InstrumentKey} {page : List Bar}
    {s s' : Session σ} {saved : Nat} (hpage : page ≠ [])
    (h : (store.saveNew key page).exec s = (.ok saved, s')) :
    ∃ oldest newest days s₁, Date.min? (page.map (·.tradeDate)) = some oldest ∧
      Date.max? (page.map (·.tradeDate)) = some newest ∧
      (store.existingDates key oldest newest).exec s = (.ok days, s₁) ∧
      ((freshBars days page = [] ∧ saved = 0 ∧ s'.world = s₁.world) ∨
        freshBars days page ≠ [] ∧
          ∃ s₂, (store.saveAll key (freshBars days page)).exec s₁ = (.ok saved, s₂) ∧
            s'.world = s₂.world) := by
  unfold saveNew at h
  dsimp only at h
  cases hmin : Date.min? (page.map (·.tradeDate)) with
  | none => exact absurd (List.map_eq_nil_iff.mp (Date.min?_eq_none_iff.mp hmin)) hpage
  | some oldest =>
      cases hmax : Date.max? (page.map (·.tradeDate)) with
      | none => exact absurd (List.map_eq_nil_iff.mp (Date.max?_eq_none_iff.mp hmax)) hpage
      | some newest =>
          rw [hmin, hmax] at h
          obtain ⟨days, s₁, hdays, h⟩ := Attempt.exec_bind_eq_ok.mp h
          refine ⟨oldest, newest, days, s₁, rfl, rfl, Attempt.exec_orElseAs_ok.mp hdays, ?_⟩
          unfold saveFresh at h
          split at h
          · rename_i hempty
            obtain ⟨-, hlog⟩ := Prod.mk.inj h
            refine .inl ⟨List.isEmpty_iff.mp hempty, ?_, by rw [← hlog]⟩
            cases h
            rfl
          · rename_i hfull
            obtain ⟨n, s₂, hsave, h⟩ := Attempt.exec_bind_eq_ok.mp h
            cases h
            exact .inr ⟨fun hnil => hfull (List.isEmpty_iff.mpr hnil), s₂,
              Attempt.exec_orElseAs_ok.mp hsave, rfl⟩

namespace Batch

variable {b : Batch σ} {job : Job} {strategy : Strategy} {key : InstrumentKey} {i : Instrument}
  {start last cursor : Date} {s s' : Session σ} {bars : List Bar} {saved : Nat}

/-- Where a job goes on after a page, if it does. -/
def nextEnd? (b : Batch σ) (job : Job) (strategy : Strategy) (key : InstrumentKey)
    (start cursor : Date) (page : List Bar) : Option { d : Date // d < cursor } :=
  match job with
  | .collection => none
  | .backfill => (strategy.source b.prices key).nextEnd? strategy.pageSize start cursor page

/-- An error-free gathering of a job from a cursor: the bars of its pages, the number of rows that
were saved, and the session after it. -/
inductive Pages (b : Batch σ) (job : Job) (strategy : Strategy) (key : InstrumentKey)
    (start : Date) : (cursor : Date) → Session σ → List Bar → Nat → Session σ → Prop where
  /-- The page is empty. -/
  | empty {cursor : Date} {s s₁ s' : Session σ} :
      (b.prices (.ofAssetType strategy.assetType) key start cursor).exec s = (.ok [], s₁) →
      s'.world = s₁.world → Pages b job strategy key start cursor s [] 0 s'
  /-- The page is the last one. -/
  | last {cursor : Date} {s s₁ s₂ s' : Session σ} {page : List Bar} {n : Nat} :
      (b.prices (.ofAssetType strategy.assetType) key start cursor).exec s = (.ok page, s₁) →
      page ≠ [] → (b.store.saveNew key page).exec s₁ = (.ok n, s₂) →
      b.nextEnd? job strategy key start cursor page = none → s'.world = s₂.world →
      Pages b job strategy key start cursor s page n s'
  /-- The job goes on after the page. -/
  | next {cursor : Date} {s s₁ s₂ s₃ s' : Session σ} {page bars : List Bar} {n m : Nat}
      {next : { d : Date // d < cursor }} :
      (b.prices (.ofAssetType strategy.assetType) key start cursor).exec s = (.ok page, s₁) →
      page ≠ [] → (b.store.saveNew key page).exec s₁ = (.ok n, s₂) →
      b.nextEnd? job strategy key start cursor page = some next → s₃.world = s₂.world →
      Pages b job strategy key start next.val s₃ bars m s' →
      Pages b job strategy key start cursor s (page ++ bars) (n + m) s'

/-- What comes after a gathering and leaves the world alone may be counted in. -/
theorem Pages.quiet {s'' : Session σ} (h : b.Pages job strategy key start cursor s bars saved s')
    (hworld : s''.world = s'.world) : b.Pages job strategy key start cursor s bars saved s'' := by
  induction h with
  | empty hfetch hquiet => exact .empty hfetch (hworld.trans hquiet)
  | last hfetch hpage hsave hnext hquiet =>
      exact .last hfetch hpage hsave hnext (hworld.trans hquiet)
  | next hfetch hpage hsave hnext hquiet _ ih =>
      exact .next hfetch hpage hsave hnext hquiet (ih hworld)

/-- A walk without errors gathers pages. -/
theorem pages_of_walkFrom {progress progress' : WalkProgress}
    (h : ((strategy.source b.prices key).walkFrom (b.store.saveNew key) strategy.pageSize start cursor
      progress).exec s = (.ok progress', s')) :
    ∃ bars saved, b.Pages .backfill strategy key start cursor s bars saved s' ∧
      progress'.saved = progress.saved + saved := by
  induction cursor using Date.lt_wellFounded.induction generalizing progress s with
  | _ cursor ih =>
  rw [PageSource.exec_walkFrom] at h
  rcases hask : ((strategy.source b.prices key).fetch start cursor).exec s with ⟨r, s₁⟩
  rw [hask] at h
  cases r with
  | error e => cases h
  | ok page =>
  have hfetch := Attempt.exec_orElseAs_ok.mp hask
  dsimp only at h
  split at h
  · rename_i hempty
    obtain rfl := List.isEmpty_iff.mp hempty
    cases h
    exact ⟨[], 0, .empty hfetch rfl, rfl⟩
  · rename_i hpage
    rcases hsink : (b.store.saveNew key page).exec s₁ with ⟨r, s₂⟩
    rw [hsink] at h
    cases r with
    | error e => cases h
    | ok n =>
    have hfull : page ≠ [] := fun hnil => hpage (List.isEmpty_iff.mpr hnil)
    have hquiet := PageSource.world_logNext (strategy.source b.prices key) strategy.pageSize cursor
      page s₂
    dsimp only at h
    cases hnext : (strategy.source b.prices key).nextEnd? strategy.pageSize start cursor page with
    | none =>
        rw [hnext] at h
        cases h
        exact ⟨page, n, .last hfetch hfull hsink hnext hquiet, rfl⟩
    | some next =>
        rw [hnext] at h
        obtain ⟨bars, m, hrest, hsaved⟩ := ih next.val next.property h
        exact ⟨page ++ bars, n + m, .next hfetch hfull hsink hnext hquiet hrest, by
          rw [hsaved, Nat.add_assoc]⟩

/-- Gathering without errors gathers pages, for an instrument with a key. -/
theorem pages_of_gather (h : (b.gather job strategy i start last).exec s = (.ok saved, s')) :
    ∃ key bars, i.key? = some key ∧ b.Pages job strategy key start last s bars saved s' := by
  cases job with
  | collection =>
      obtain ⟨key, t, hkey, h⟩ := Attempt.exec_bind_eq_ok.mp h
      obtain ⟨hk, rfl⟩ := Prod.mk.inj hkey
      obtain ⟨page, s₁, hask, h⟩ := Attempt.exec_bind_eq_ok.mp h
      have hfetch := Attempt.exec_orElseAs_ok.mp hask
      refine ⟨key, page, keyOf_eq_ok.mp hk, ?_⟩
      split at h
      · rename_i hempty
        obtain rfl := List.isEmpty_iff.mp hempty
        cases h
        exact .empty hfetch rfl
      · rename_i hpage
        exact .last hfetch (fun hnil => hpage (List.isEmpty_iff.mpr hnil)) h rfl rfl
  | backfill =>
      obtain ⟨key, t, hkey, h⟩ := Attempt.exec_bind_eq_ok.mp h
      obtain ⟨hk, rfl⟩ := Prod.mk.inj hkey
      obtain ⟨progress, s₁, hwalk, h⟩ := Attempt.exec_bind_eq_ok.mp h
      obtain ⟨bars, n, hpages, hsaved⟩ := pages_of_walkFrom hwalk
      cases h
      rw [hsaved, Nat.zero_add]
      exact ⟨key, bars, keyOf_eq_ok.mp hk, hpages.quiet rfl⟩

end Batch

end DailyBars
