import DailyBars.Broker.Http
import DailyBars.Json.Lookup
import DailyBars.Json.Reader
import DailyBars.Text.Characters

/-!
# A server with a script

An HTTP server in the process that gives the answers of a script, one for each request, and records
the requests. When the script is at its end it goes away without an answer.
-/

namespace DailyBars

/-- What the server does with a request. -/
inductive ServerAnswer where
  | reply (r : HttpResponse)
  /-- It goes away. -/
  | close
  /-- It lets the request wait for longer than anybody is ready to. -/
  | hang
  deriving DecidableEq, Repr

/-- A server and what was asked of it. -/
structure RehearsalServer where
  /-- The name and port at which it can be reached. -/
  host : String
  answers : List ServerAnswer
  /-- The requests so far, oldest first. -/
  requests : List HttpRequest

/-- The address of a server, in two parts. -/
structure ServerAddress where
  host : String
  path : String
  deriving DecidableEq, Repr

/-- Reads the address of a server: a scheme, a name and port, and perhaps a path, in which a slash
at the end says no more than none. -/
def ServerAddress.ofText? (s : String) : Option ServerAddress :=
  match s.splitOn "://" with
  | [scheme, rest] =>
    let host := rest.toList.takeWhile (· ≠ '/')
    if (scheme = "http" ∨ scheme = "https") ∧ !host.isEmpty then
      some ⟨String.ofList host, String.ofList (rest.toList.drop host.length)⟩
    else none
  | _ => none

namespace RehearsalServer

/-- Answers a request. -/
def answer (s : RehearsalServer) (r : HttpRequest) :
    Except HttpError HttpResponse × RehearsalServer :=
  match ServerAddress.ofText? r.base with
  | none => (.error (.address "relative URL without a base"), s)
  | some address =>
    if address.host.replace "localhost" "127.0.0.1" ≠ s.host then
      (.error (.unreachable "connection refused"), s)
    else
      let s' := { s with answers := s.answers.tail, requests := s.requests ++ [r] }
      match s.answers.headD .close with
      | .reply response => (.ok response, s')
      | .close => (.error (.unreachable "connection closed"), s')
      | .hang => (.error (.late "no answer in time"), s')

/-- The server in a part of the world. -/
def exchange {σ : Type} (p : Part σ RehearsalServer) : HttpExchange σ := fun r =>
  ExceptT.mk (Act.onPart p (·.answer r))

/-- Reads an answer. -/
def answerOfJson (j : Json) : ServerAnswer :=
  if j.isTrueAt "close" then .close
  else if j.isTrueAt "hang" then .hang
  else .reply ⟨j.natAt "status" 200, j.textAt "body"⟩

/-- Reads a server that can be reached at a name and port. -/
def ofJson (host : String) (j : Json) : RehearsalServer := ⟨host, j.items.map answerOfJson, []⟩

/-- The requests so far, and the server without them. -/
def takeRequests (s : RehearsalServer) : List HttpRequest × RehearsalServer :=
  (s.requests, { s with requests := [] })

end RehearsalServer

/-- Writes a request as the server sees it, the blanks around the values of its headers left out. -/
def HttpRequest.toJson (r : HttpRequest) : Json :=
  let path := ((ServerAddress.ofText? r.base).map (·.path)).getD ""
  .obj [("method", .str r.method.name), ("target", .str (path ++ r.target)),
    ("headers", .obj (r.headers.map fun (name, value) =>
      (name, .list [.str (Text.trim value)]))),
    ("body", r.body.getD .null)]

end DailyBars
