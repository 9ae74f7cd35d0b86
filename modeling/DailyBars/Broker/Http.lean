import DailyBars.Broker.Error
import DailyBars.Json.Value
import DailyBars.Session
import DailyBars.Text.FormEncoded

/-!
# Requests over HTTP

What is sent to the broker's server and what comes back.
-/

namespace DailyBars

/-- The two methods that the broker knows. -/
inductive HttpMethod where
  | get
  | post
  deriving DecidableEq, Repr

/-- The name of a method. -/
def HttpMethod.name : HttpMethod → String
  | get => "GET"
  | post => "POST"

/-- A request. -/
structure HttpRequest where
  method : HttpMethod
  /-- The address of the server. -/
  base : String
  path : String
  query : List (String × String)
  headers : List (String × String)
  body : Option Json

/-- What follows the server's address: the path and the query. -/
def HttpRequest.target (r : HttpRequest) : String :=
  if r.query.isEmpty then r.path else r.path ++ "?" ++ Text.formEncoded r.query

/-- An answer. -/
structure HttpResponse where
  status : Nat
  content : String
  deriving DecidableEq, Repr

namespace HttpResponse

/-- Whether the request succeeded. -/
def isSuccess (r : HttpResponse) : Bool := 200 ≤ r.status && r.status < 300

/-- The text of the answer, without the mark that may stand at the beginning of a text. Answers with
status 204 and 304 have no content. -/
def text (r : HttpResponse) : String :=
  if r.status = 204 ∨ r.status = 304 then ""
  else
    match r.content.toList with
    | '\uFEFF' :: cs => String.ofList cs
    | _ => r.content

/-- The phrases that go with the statuses. -/
def phrases : List (Nat × String) := [
  (100, "Continue"), (101, "Switching Protocols"), (102, "Processing"), (103, "Early Hints"),
  (200, "OK"), (201, "Created"), (202, "Accepted"), (203, "Non Authoritative Information"),
  (204, "No Content"), (205, "Reset Content"), (206, "Partial Content"), (207, "Multi-Status"),
  (208, "Already Reported"), (226, "IM Used"), (300, "Multiple Choices"),
  (301, "Moved Permanently"), (302, "Found"), (303, "See Other"), (304, "Not Modified"),
  (305, "Use Proxy"), (307, "Temporary Redirect"), (308, "Permanent Redirect"),
  (400, "Bad Request"), (401, "Unauthorized"), (402, "Payment Required"), (403, "Forbidden"),
  (404, "Not Found"), (405, "Method Not Allowed"), (406, "Not Acceptable"),
  (407, "Proxy Authentication Required"), (408, "Request Timeout"), (409, "Conflict"),
  (410, "Gone"), (411, "Length Required"), (412, "Precondition Failed"),
  (413, "Payload Too Large"), (414, "URI Too Long"), (415, "Unsupported Media Type"),
  (416, "Range Not Satisfiable"), (417, "Expectation Failed"), (418, "I'm a teapot"),
  (421, "Misdirected Request"), (422, "Unprocessable Entity"), (423, "Locked"),
  (424, "Failed Dependency"), (425, "Too Early"), (426, "Upgrade Required"),
  (428, "Precondition Required"), (429, "Too Many Requests"),
  (431, "Request Header Fields Too Large"), (451, "Unavailable For Legal Reasons"),
  (500, "Internal Server Error"), (501, "Not Implemented"), (502, "Bad Gateway"),
  (503, "Service Unavailable"), (504, "Gateway Timeout"), (505, "HTTP Version Not Supported"),
  (506, "Variant Also Negotiates"), (507, "Insufficient Storage"), (508, "Loop Detected"),
  (510, "Not Extended"), (511, "Network Authentication Required")]

/-- The status with its phrase. -/
def statusText (r : HttpResponse) : String :=
  Text.decimalText r.status ++ " " ++ (phrases.lookup r.status).getD "<unknown status code>"

end HttpResponse

/-- Why a request got no answer. -/
inductive HttpError where
  /-- The server was not reached, or went away without an answer. -/
  | unreachable (reason : String)
  /-- No answer came in time. -/
  | late (reason : String)
  /-- The address of the server is none. -/
  | address (reason : String)
  deriving DecidableEq, Repr

/-- What the failure of a request means for the broker's client. -/
def BrokerError.ofHttp : HttpError → BrokerError
  | .unreachable r => network r
  | .late r => timeout r
  | .address r => unknown r

/-- What sends requests. -/
abbrev HttpExchange (σ : Type) := HttpRequest → Attempt σ HttpError HttpResponse

end DailyBars
