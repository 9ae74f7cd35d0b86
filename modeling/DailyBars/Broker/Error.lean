/-!
# Failures of the broker

Why the broker gave no prices or no token. All of them pass: the next run asks again.
-/

namespace DailyBars

/-- Why a request to the broker failed. -/
inductive BrokerError where
  /-- The broker was not reached. -/
  | network (reason : String)
  /-- No token was issued, or an answer held none. -/
  | unauthorized (reason : String)
  /-- No account matches. -/
  | accountNotFound (reason : String)
  /-- Too many requests. -/
  | rateLimited
  /-- The broker answered with an error of its own. -/
  | api (code message : String)
  /-- The answer cannot be read. -/
  | parse (reason : String)
  /-- The request cannot be made. -/
  | invalidRequest (reason : String)
  /-- No answer in time. -/
  | timeout (reason : String)
  | unknown (reason : String)
  deriving DecidableEq, Repr

namespace BrokerError

/-- The wording of a failure. -/
def message : BrokerError → String
  | network r => "Network error: " ++ r
  | unauthorized r => "Unauthorized: " ++ r
  | accountNotFound r => "Account not found: " ++ r
  | rateLimited => "Rate limit exceeded"
  | api code text => "API error " ++ code ++ ": " ++ text
  | parse r => "Parse error: " ++ r
  | invalidRequest r => "Invalid request: " ++ r
  | timeout r => "Request timeout: " ++ r
  | unknown r => "Unknown error: " ++ r

/-- Whether the account or its credentials are at fault. -/
def isAuthentication : BrokerError → Bool
  | unauthorized _ | accountNotFound _ => true
  | _ => false

end BrokerError

end DailyBars
