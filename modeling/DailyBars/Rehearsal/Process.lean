import DailyBars.Program.Process
import DailyBars.Rehearsal.Service

/-!
# The rehearsal of the process

A process in a directory with a configuration file and nothing else but perhaps a file of variables.
-/

namespace DailyBars

/-- The files of a rehearsal. -/
structure RehearsalFiles where
  config : Option String
  /-- The file of variables. -/
  dotenv : Option String
  deriving DecidableEq, Repr

namespace RehearsalFiles

/-- The place to which a path leads from a place, a list of names with the innermost one first.
There is one directory, and a path goes through directories only. -/
def follow : List String → List String → Option (List String)
  | place, [] => some place
  | place, "" :: names => follow place names
  | place, "." :: names => follow place names
  | ["config"], ".." :: names => follow [] names
  | [], name :: names => if name = ".." then none else follow [name] names
  | ["config"], name :: names => follow [name, "config"] names
  | _, _ :: _ => none

/-- The content of the file at a path. -/
def read (f : RehearsalFiles) (path : String) : Option String :=
  if path.startsWith "/" || path.endsWith "/" then none
  else
    match follow [] (path.splitOn "/") with
    | some ["collector.toml", "config"] => f.config
    | some [".env"] => f.dotenv
    | _ => none

/-- Reads the files. -/
def ofJson (j : Json) : RehearsalFiles := ⟨j.textAt? "toml", j.textAt? "dotenv"⟩

end RehearsalFiles

/-- Reads an environment. -/
def Environment.ofJson (j : Json) : Environment :=
  ⟨j.entries.filterMap fun (name, value) => value.text?.map (name, ·)⟩

/-- Reads what a process is started with. -/
def Invocation.ofJson (j : Json) : Invocation where
  arguments := (j.itemsAt "args").filterMap (·.text?)
  environment := .ofJson (j.at! "env")
  read := (RehearsalFiles.ofJson j).read
  random := List.replicate 32 7

namespace Json

mutual

/-- The value with the fields of all objects in the order of their names. -/
def sorted : Json → Json
  | .object fields => .object ((sortedFields fields).mergeSort fun a b => a.1.getD "" ≤ b.1.getD "")
  | .list items => .list (sortedItems items)
  | j => j

/-- Fields with sorted values. -/
def sortedFields : List (Option String × Json) → List (Option String × Json)
  | [] => []
  | (k, v) :: rest => (k, v.sorted) :: sortedFields rest

/-- Sorted items. -/
def sortedItems : List Json → List Json
  | [] => []
  | v :: rest => v.sorted :: sortedItems rest

end

end Json

namespace ProcessEnd

/-- The lines of the output that are JSON objects, without their times. -/
def records (e : ProcessEnd) : List Json :=
  (e.output.splitOn "\n").filterMap fun line =>
    match Json.ofText? line with
    | some (.object fields) => some (.object (fields.filter fun f => f.1 != some "timestamp"))
    | _ => none

/-- The records in the order of their texts. -/
def sortedRecords (e : ProcessEnd) : List Json :=
  e.records.mergeSort fun a b => a.sorted.write ≤ b.sorted.write

/-- The kind of the failure that the process ended with. -/
def problem? (e : ProcessEnd) : Option String :=
  if e.complaint.startsWith "Error: " then
    let text := (e.complaint.toList.drop 7).takeWhile fun c => c ≠ '"' && c ≠ '\n'
    some (String.ofList (if text.getLast? = some '(' then text.dropLast else text))
  else none

/-- The length of the key that was written. -/
def keyBytes? (e : ProcessEnd) : Option Nat :=
  if e.output.isEmpty then none else (Base64.ofText? (Text.trim e.output)).map (·.length)

/-- Writes the end of a process, with its records in the order of their texts or as they came. -/
def toJson (inOrder : Bool) (e : ProcessEnd) : List (String × Json) :=
  [("code", .nat e.code), ("error", .str? e.problem?),
    ("logs", .list (if inOrder then e.sortedRecords else e.records)),
    ("stdout_key_bytes", Json.orNull .nat e.keyBytes?), ("stdout_empty", .bool e.output.isEmpty)]

end ProcessEnd

/-- Runs a process against the servers of a rehearsal, and writes its end and what the servers were
asked. A process that gives up does not wait for its last rollback, so that none is told. -/
def rehearseProcess (j : Json) (start : ServiceWorld → Session ServiceWorld)
    (k : Option TokenSeal) : Json :=
  let isServed := ["redis", "pg", "pg_simple", "http", "applied", "dirty"].any fun name =>
    (j.at? name).isSome
  let stop := j.natAt? "interrupt_after"
  let (e, s) := (Invocation.ofJson j).run ServiceWorld.outside (stop.getD 0 - 2)
    (start (.ofJson isServed k j))
  let shows (q : Statement) : Bool := e.code == 0 || q != .rollback
  let servers := ((ServiceWorld.takeReport k shows).run s).1
  .obj (e.toJson stop.isSome ++ if isServed then [("servers", .obj servers)] else [])

end DailyBars
