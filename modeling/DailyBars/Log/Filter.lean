import DailyBars.Log.Event
import DailyBars.Settings.Error
import DailyBars.Text.Characters

/-!
# Which events are written

A filter is a list of directives, `target[span]=level` with each part optional: events of the named
target, a beginning of the event's own, are written from the level on that is named. Of all the
directives that are about an event the most specific one decides: the one with the longest target,
then the one that asks for most fields. What nobody directs is not written.
-/

namespace DailyBars

/-- How much is written. -/
inductive LogVolume where
  | off | error | warn | info | debug | trace
  deriving DecidableEq, Repr

namespace LogVolume

/-- The rank of the least urgent level that is written. -/
def rank : LogVolume → Nat
  | off => 0
  | error => 1
  | warn => 2
  | info => 3
  | debug => 4
  | trace => 5

/-- All volumes with their names. -/
def names : List (String × LogVolume) :=
  [("off", off), ("error", error), ("warn", warn), ("info", info), ("debug", debug),
    ("trace", trace)]

/-- The volume of a name, capitals or not, or of a rank; nothing at all stands for errors only. -/
def ofText? (s : String) : Option LogVolume :=
  if s.isEmpty then some error
  else
    match Text.readUnsigned? s.toList with
    | some n => (names.find? fun p => p.2.rank == n).map (·.2)
    | none => (names.find? fun p => Text.equalsIgnoringCase p.1 s).map (·.2)

/-- What is said of a word that names none. -/
def unknownText : String :=
  "error parsing level filter: expected one of \"off\", \"error\", \"warn\", \"info\", " ++
    "\"debug\", " ++
    "\"trace\", or a number 0-5"

end LogVolume

/-- One directive. -/
structure LogDirective where
  target : Option String
  /-- The name of a span. The collector's events are written without regard to spans, so a directive
  with a span is about none of them. -/
  span : Option String
  /-- The names of fields, and for some of them a pattern for the value. -/
  fields : List (String × Option String)
  volume : LogVolume
  deriving DecidableEq, Repr

namespace LogDirective

/-- Why a text is not a directive. -/
inductive Problem where
  | form
  | volume
  deriving DecidableEq, Repr

/-- The wording of a problem. -/
def Problem.message : Problem → String
  | form => "invalid filter directive"
  | volume => LogVolume.unknownText

/-- Whether a directive may begin with a character that is not a bracket. -/
def mayBegin (c : Char) : Bool :=
  c.isAlphanum || 128 ≤ c.toNat || c = '-' || c = ':' || c = '_'

/-- Reads a field: its name, and perhaps a pattern after an equality sign. -/
def fieldOf (cs : List Char) : String × Option String :=
  let name := cs.takeWhile (· ≠ '=')
  let rest := cs.drop name.length
  (String.ofList name,
    if rest.isEmpty then none else some (String.ofList (rest.tail.takeWhile (· ≠ '='))))

/-- Reads what follows a target or a span: nothing, or a level after an equality sign. An equality
sign alone asks for everything. -/
def volumeOf (cs : List Char) : Except Problem LogVolume :=
  match cs with
  | [] => .ok .trace
  | ['='] => .ok .trace
  | '=' :: name =>
    match LogVolume.ofText? (String.ofList name) with
    | some v => .ok v
    | none => .error .volume
  | _ => .error .form

/-- Reads a directive from the bracket of its span on. -/
def ofSpan (target : Option String) (cs : List Char) : Except Problem LogDirective := do
  let name := cs.takeWhile fun c => c ≠ ']' && c ≠ '\x7b'
  match cs.drop name.length with
  | ']' :: rest => return ⟨target, some (String.ofList name), [], ← volumeOf rest⟩
  | '\x7b' :: rest =>
    let body := rest.takeWhile (· ≠ '\x7d')
    if body.isEmpty then throw .form
    match rest.drop body.length with
    | '\x7d' :: ']' :: rest =>
      let span := if name.isEmpty then none else some (String.ofList name)
      return ⟨target, span, [fieldOf body], ← volumeOf rest⟩
    | _ => throw .form
  | _ => throw .form

/-- Reads a directive. A word that names a level is about every target, and any other word is a
target of which everything is written. -/
def ofText (s : String) : Except Problem LogDirective :=
  match s.toList with
  | [] => .ok ⟨none, none, [], .trace⟩
  | '[' :: rest => ofSpan none rest
  | cs@(c :: _) =>
    if !mayBegin c then .error .form
    else
      let word := cs.takeWhile fun c => c ≠ '=' && c ≠ '['
      match cs.drop word.length with
      | [] =>
        match LogVolume.ofText? s with
        | some v => .ok ⟨none, none, [], v⟩
        | none => .ok ⟨some s, none, [], .trace⟩
      | '[' :: rest => ofSpan (some (String.ofList word)) rest
      | rest => do return ⟨some (String.ofList word), none, [], ← volumeOf rest⟩

/-- Whether the directive is about an event. -/
def isAbout (d : LogDirective) (e : LogEvent) : Bool :=
  d.span.isNone && (d.target.getD "").isPrefixOf e.source.path &&
    d.fields.all fun f =>
      f.2.isNone && (f.1 == "message" || e.fields.any (·.1 == f.1))

/-- How specific the directive is, as a list of numbers to be compared one by one. -/
def specificity (d : LogDirective) : List Nat :=
  [match d.target with
    | none => 0
    | some t => t.utf8ByteSize + 1, d.fields.length]

end LogDirective

/-- A filter. -/
structure LogFilter where
  directives : List LogDirective
  deriving DecidableEq, Repr

namespace LogFilter

/-- Reads a list of directives with commas between them. -/
def ofText (s : String) : Except LogDirective.Problem LogFilter := do
  let parts := (s.splitOn ",").filter (!·.isEmpty)
  return ⟨← parts.mapM LogDirective.ofText⟩

/-- The more specific one of two directives, the second one if they are equally specific. -/
def moreSpecific (d e : LogDirective) : LogDirective :=
  if e.specificity < d.specificity then d else e

/-- The directive that decides about an event. -/
def deciding? (f : LogFilter) (e : LogEvent) : Option LogDirective :=
  (f.directives.filter (·.isAbout e)).foldl
    (fun best d => some (best.elim d (moreSpecific · d))) none

/-- Whether an event is written. -/
def passes (f : LogFilter) (e : LogEvent) : Bool :=
  match f.deciding? e with
  | some d => decide (e.level.rank ≤ d.volume.rank)
  | none => false

/-- The filter of a process: that of its environment if there is one that can be read, or else that
of its configuration. -/
def choose (environment : Option String) (configured : String) : Except SetupError LogFilter :=
  match environment.bind fun s => (ofText s).toOption with
  | some f => .ok f
  | none => (ofText configured).mapError fun p => .config ("로그 레벨 파싱 실패: " ++ p.message)

end LogFilter

end DailyBars
