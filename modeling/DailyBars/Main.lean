import DailyBars.Program.Offline
import DailyBars.Program.Process

/-!
# The program

Finds out what the process was started with, runs it, and writes what it leaves behind.
-/

namespace DailyBars

/-- Where the system keeps the variables of a process. -/
def variablesOfProcess : String := "/proc/self/environ"

/-- Takes a byte before a block of variables, each of which ends in a zero. -/
def takeByte (b : UInt8) (entries : List (List UInt8)) : List (List UInt8) :=
  if b = 0 then [] :: entries
  else
    match entries with
    | [] => [[b]]
    | entry :: rest => (b :: entry) :: rest

/-- The variables in a block of them. Those that are no text are passed over. -/
def Environment.ofBlock (block : List UInt8) : Environment :=
  ⟨(block.foldr takeByte []).filterMap fun bytes =>
    (Text.ofBytes? bytes).bind fun entry =>
      let cs := entry.toList
      let name := cs.takeWhile (· ≠ '=')
      if name.isEmpty then none
      else some (String.ofList name, String.ofList (cs.drop (name.length + 1)))⟩

/-- The content of a file, if there is one and it is a text. -/
def contentOf (path : String) : IO (Option String) := do
  try return some (← IO.FS.readFile path) catch _ => return none

/-- The files that a run may read, with their contents. -/
def filesFor (arguments : List String) : IO (List (String × String)) := do
  let paths :=
    match Command.ofArguments arguments with
    | .run _ options => [Invocation.variableFile, options.configPath,
        options.configPath ++ "." ++ ConfigFile.extension]
    | _ => []
  paths.filterMapM fun path => return (← contentOf path).map (path, ·)

/-- The time at which the process was started, on the wall. -/
def startOfProcess : IO Instant := do
  let time := (← (← IO.FS.realPath variablesOfProcess).metadata).modified
  return ⟨time.sec, time.nsec.toNat⟩

end DailyBars

open DailyBars in
/-- Runs the program. -/
def main (arguments : List String) : IO UInt32 := do
  let files ← filesFor arguments
  let i : Invocation := {
    arguments
    environment := .ofBlock (← IO.FS.readBinFile variablesOfProcess).toList
    read path := files.lookup path
    random := (← IO.getRandomBytes 32).toList }
  let clock : Clock := ⟨← startOfProcess, ← IO.monoNanosNow⟩
  let (e, _) := (i.run Offline.outside 0).run ⟨.start, clock, []⟩
  IO.print e.output
  IO.eprint e.complaint
  return e.code.toUInt32
