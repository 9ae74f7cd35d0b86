import DailyBars.Broker.Account
import DailyBars.Calendar.Pattern
import DailyBars.Calendar.Seoul
import DailyBars.Json.Decode
import DailyBars.Session

/-!
# Answers of the token issuer

The broker may leave out any field of its answer. The end of a token is told as a Seoul wall
reading; where that does not denote exactly one instant, the time of the request and the token's
length of life stand in.
-/

namespace DailyBars

/-- What the broker answered to a request for a token. -/
structure TokenReply where
  accessToken : Option String
  /-- The end of the token's life as Seoul shows it. -/
  expiry : Option String
  tokenType : Option String
  /-- The token's length of life in seconds. -/
  lifetime : Option Int
  deriving DecidableEq, Repr

namespace TokenReply

/-- Reads an answer. -/
def decoder : Decoder TokenReply :=
  Decoder.record "TokenResponse" [
    Decoder.defaulted "access_token" (Decoder.option Decoder.string)
      fun r v => { r with accessToken := v },
    Decoder.defaulted "access_token_token_expired" (Decoder.option Decoder.string)
      fun r v => { r with expiry := v },
    Decoder.defaulted "token_type" (Decoder.option Decoder.string)
      fun r v => { r with tokenType := v },
    Decoder.defaulted "expires_in" (Decoder.option Decoder.int64)
      fun r v => { r with lifetime := v }]
    ⟨none, none, none, none⟩

/-- The token, unless it is blank. -/
def token? (r : TokenReply) : Option String :=
  r.accessToken.filter fun t => !Text.isBlankText t

end TokenReply

/-- The instant of a stamp `YYYY-MM-DD HH:MM:SS` on the clock of Seoul, if it shows it once. -/
def Seoul.instantOfStamp? (s : String) : Option Instant :=
  match WallReading.ofStamp (Text.trim s) with
  | .error _ => none
  | .ok r => Seoul.single? r

/-- The end of the token's life, for a token asked for at `issuedAt`. -/
def TokenReply.expiresAt? (r : TokenReply) (issuedAt : Instant) : Option Instant :=
  match r.expiry.bind Seoul.instantOfStamp? with
  | some t => some t
  | none => r.lifetime.bind issuedAt.addSeconds?

/-- Whoever issues tokens. Nothing is given for an answer without content. -/
abbrev TokenIssuer (σ : Type) := Account → Attempt σ BrokerError (Option TokenReply)

end DailyBars
