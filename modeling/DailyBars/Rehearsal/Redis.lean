import DailyBars.Cipher.Secrets
import DailyBars.Rehearsal.Failures
import DailyBars.Storage.RedisKeys

/-!
# A Redis server with a script

A Redis server in the process that records the commands it gets and answers by a script. The script
either has the answers in the order of the commands, or the answers to each kind of command; in the
second case the server does what it is asked when the script has nothing to say.
-/

namespace DailyBars

/-- What the server does with a command. -/
inductive RedisAnswer where
  | reply (r : RedisReply)
  | refuse (text : String)
  /-- It closes the connection. -/
  | close
  deriving DecidableEq, Repr

/-- Where the answers come from. -/
inductive RedisScript where
  /-- In order; nil when none is left. -/
  | inOrder (answers : List RedisAnswer)
  /-- By the first word of the command; the server keeps the keys that were set. -/
  | byWord (answers : List (String × List RedisAnswer)) (keys : RedisKeys)

/-- A server and what was asked of it. -/
structure RehearsalRedis where
  script : RedisScript
  isOpen : Bool
  /-- The commands so far, oldest first. -/
  commands : List RedisCommand

namespace RedisScript

/-- What the server does with a command when the script has nothing to say. It gives every lock to
whoever asks for it, and takes it back. -/
def unscripted (keys : RedisKeys) (now : Nat) : RedisCommand → RedisReply × RedisKeys
  | .setIfAbsent .. => (.status "OK", keys)
  | .release .. => (.int 1, keys)
  | c => keys.run now c

/-- The answer to a command at a given uptime. -/
def answer (s : RedisScript) (now : Nat) (c : RedisCommand) : RedisAnswer × RedisScript :=
  match s with
  | .inOrder answers => (answers.headD (.reply .nil), .inOrder answers.tail)
  | .byWord answers keys =>
    let word := c.words.headD ""
    match (answers.lookup word).getD [] with
    | a :: left => (a, .byWord ((word, left) :: answers.filter (·.1 != word)) keys)
    | [] => (.reply (unscripted keys now c).1, .byWord answers (unscripted keys now c).2)

end RedisScript

namespace RehearsalRedis

variable {σ : Type}

/-- A server that was not asked yet. -/
def ofScript (script : RedisScript) : RehearsalRedis := ⟨script, true, []⟩

/-- Answers a command at a given uptime. A closed connection stays closed. -/
def answer (s : RehearsalRedis) (now : Nat) (c : RedisCommand) :
    Except RedisError RedisReply × RehearsalRedis :=
  if !s.isOpen then (.error .closed, s)
  else
    let (a, script) := s.script.answer now c
    let s' : RehearsalRedis := ⟨script, true, s.commands ++ [c]⟩
    match a with
    | .reply r => (.ok r, s')
    | .refuse text => (.error (.refused text), s')
    | .close => (.error .closed, { s' with isOpen := false })

/-- The connection to a server in a part of the world. -/
def link (p : Part σ RehearsalRedis) : RedisLink σ := fun c => ExceptT.mk do
  let now ← Act.uptime
  Act.onPart p (·.answer now c)

end RehearsalRedis

/-- Reads an answer. A token is sealed on the way. -/
def RedisAnswer.ofJson (sealToken : String → String) : Json → RedisAnswer
  | .null => .reply .nil
  | .text s => .reply (.text (s.getD ""))
  | .number (.int n) => .reply (.int n)
  | j =>
    if j.isTrueAt "close" then .close
    else
      match j.textAt? "simple", j.textAt? "err", j.textAt? "token" with
      | some s, _, _ => .reply (.status s)
      | none, some text, _ => .refuse text
      | none, none, some token => .reply (.text (sealToken token))
      | none, none, none => .reply .nil

/-- The number of characters of an identifier. -/
def freshIdLength : Nat := 36

/-- The identifier with a number, for acquisitions of a rehearsal. -/
def freshIdOf (n : Nat) : String := "00000000-0000-4000-8000-" ++ Text.padded 12 n

/-- A word of a command, with what differs from one run to the next replaced: the digest of the
script, and an identifier at the end. -/
def RedisCommand.shownWord (w : String) : String :=
  let cs := w.toList
  let head := cs.take (cs.length - freshIdLength)
  let tail := String.ofList (cs.drop head.length)
  if w = releaseDigest then "<release-script>"
  else if tail.startsWith "00000000-0000-4000-8000-" ∧ freshIdLength ≤ cs.length then
    String.ofList head ++ "<uuid>"
  else w

/-- The command with its token opened, if it sets one. -/
def RedisCommand.opened (k : Option TokenSeal) : RedisCommand → RedisCommand
  | setFor key value ttl =>
    match k.bind fun k => (k.decrypt value).toOption with
    | some token => setFor key ("<token:" ++ token ++ ">") ttl
    | none => setFor key value ttl
  | c => c

/-- Writes a command. -/
def RedisCommand.toJson (c : RedisCommand) : Json := .list (c.words.map (.str ∘ shownWord))

end DailyBars
