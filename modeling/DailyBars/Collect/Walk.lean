import DailyBars.Collect.Error
import DailyBars.Session

/-!
# Walking back through history

A broker answers a request for the days up to some end with the newest rows it has, a page of them
at most, in no particular order. The walk asks again for what is older: each further request ends on
the day before the oldest row of the page before. It is over when a page is not full, when the next
end would not be earlier than the last, or when it would be before the start; so it always ends.
-/

namespace DailyBars

/-- Where pages come from. -/
structure PageSource (σ ρ : Type) where
  /-- The rows of a page of the days from the first to the last date. -/
  fetch : Date → Date → Attempt σ CollectError (List ρ)
  dateOf : ρ → Date

/-- Where pages go; the answer is the number of rows that were stored. -/
abbrev PageSink (σ ρ : Type) := List ρ → Attempt σ CollectError Nat

/-- How far a walk has come. -/
structure WalkProgress where
  pages : Nat
  saved : Nat
  deriving DecidableEq, Repr

/-- The size of a full page; none counts as one. -/
def fullPage (size : Nat) : Nat := max size 1

namespace PageSource

variable {σ ρ : Type}

/-- The day before the oldest row of a page. -/
def dayBefore? (source : PageSource σ ρ) (page : List ρ) : Option Date :=
  (Date.min? (page.map source.dateOf)).bind Date.pred?

/-- Where the request after a page ends, if there is one: only after a full page, only if it goes
back in time, and not to before the start. -/
def nextEnd? (source : PageSource σ ρ) (pageSize : Nat) (start cursor : Date) (page : List ρ) :
    Option { d : Date // d < cursor } :=
  if page.length < fullPage pageSize then none
  else
    match source.dayBefore? page with
    | none => none
    | some d => if h : d < cursor then (if d < start then none else some ⟨d, h⟩) else none

/-- Stores one page of the days from `start` to `last`. -/
def collectPage (source : PageSource σ ρ) (sink : PageSink σ ρ) (start last : Date) :
    Attempt σ CollectError Nat := do
  let page ← source.fetch start last
  if page.isEmpty then return 0 else sink page

/-- Says where the request after a full page would end. -/
def logNext (source : PageSource σ ρ) (pageSize : Nat) (cursor : Date) (page : List ρ) :
    Act σ Unit :=
  match source.dayBefore? page with
  | some d =>
    if page.length < fullPage pageSize then pure ()
    else
      Act.emit .debug .walk "Advancing backfill cursor"
        [("cursor_end", .text cursor.iso), ("next_end", .text d.iso), ("rows", .nat page.length)]
  | none => pure ()

/-- Stores page after page, from `cursor` back to `start`. -/
def walkFrom (source : PageSource σ ρ) (sink : PageSink σ ρ) (pageSize : Nat) (start cursor : Date)
    (progress : WalkProgress) : Attempt σ CollectError WalkProgress := do
  let page ← source.fetch start cursor
  if page.isEmpty then return { progress with pages := progress.pages + 1 }
  let saved ← sink page
  let progress : WalkProgress := ⟨progress.pages + 1, progress.saved + saved⟩
  Attempt.ofAct (source.logNext pageSize cursor page)
  match source.nextEnd? pageSize start cursor page with
  | none => return progress
  | some next => walkFrom source sink pageSize start next.val progress
termination_by (cursor.dayNumber + 96465292).toNat
decreasing_by
  have h1 : next.val.dayNumber < cursor.dayNumber := next.property
  have h2 := next.val.inCalendar
  omega

/-- Stores page after page, from `last` back to `start`. -/
def walk (source : PageSource σ ρ) (sink : PageSink σ ρ) (pageSize : Nat) (start last : Date) :
    Attempt σ CollectError WalkProgress :=
  source.walkFrom sink pageSize start last ⟨0, 0⟩

end PageSource

end DailyBars
