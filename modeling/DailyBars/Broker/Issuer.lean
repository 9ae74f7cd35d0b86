import DailyBars.Broker.Account
import DailyBars.Broker.Http
import DailyBars.Broker.TokenReply
import DailyBars.Text.Quoted

/-!
# The broker's issuer of tokens

An account's pair of keys is exchanged for an access token. A refusal may name its cause by a code.
-/

namespace DailyBars

/-- The cause of a refusal. -/
structure TokenRefusal where
  code : String
  description : String
  deriving DecidableEq, Repr

namespace TokenRefusal

/-- Reads the cause of a refusal. -/
def decoder : Decoder TokenRefusal :=
  Decoder.record "KisOAuthErrorResponse" [
    Decoder.required "error_code" Decoder.string fun r v => { r with code := v },
    Decoder.required "error_description" Decoder.string fun r v => { r with description := v }]
    ⟨"", ""⟩

/-- The wording of a cause: of our own for the codes that tell which key is at fault. -/
def message (r : TokenRefusal) : String :=
  match r.code with
  | "EGW00103" => "유효하지 않은 AppKey입니다."
  | "EGW00102" => "AppKey가 만료되었습니다."
  | "EGW00101" => "AppSecret이 일치하지 않습니다."
  | code => r.description ++ " (" ++ code ++ ")"

end TokenRefusal

/-- The request for a token of an account. -/
def tokenRequest (base : String) (a : Account) : HttpRequest where
  method := .post
  base
  path := "/oauth2/tokenP"
  query := []
  headers := [("content-type", jsonContent)]
  body := some (.obj [("grant_type", .str "client_credentials"), ("appkey", .str a.appKey),
    ("appsecret", .str a.appSecret)])

/-- Why the issuer refused. -/
def BrokerError.ofRefusal (r : HttpResponse) : BrokerError :=
  match Decoder.ofText TokenRefusal.decoder r.text with
  | .ok refusal => unauthorized refusal.message
  | .error _ => unauthorized ("Token request failed: HTTP " ++ Text.decimalText r.status)

/-- The reply in the text of a successful answer; none in an empty text or a null. -/
def TokenReply.ofText (text : String) : Except BrokerError (Option TokenReply) :=
  if Text.trim text = "" ∨ Text.trim text = "null" then .ok none
  else
    match Decoder.ofText decoder text with
    | .ok reply => .ok (some reply)
    | .error problem => .error (.parse ("Failed to parse token response: " ++ problem.message))

/-- The issuer at a server. -/
def TokenIssuer.atServer {σ : Type} (http : HttpExchange σ) (base : String) : TokenIssuer σ :=
  fun a => do
    Attempt.ofAct <| Act.emit .info .authentication "Requesting new KIS access token"
      [("account", .text (Mask.accountNumber a.number)), ("app_key", .text (Mask.appKey a.appKey))]
    let answer ← (http (tokenRequest base a)).orElseAs .ofHttp
    if answer.isSuccess then
      let reply ← Attempt.ofResult (TokenReply.ofText answer.text)
      match reply, reply.bind (·.token?) with
      | some r, some token =>
        Attempt.ofAct <| Act.emit .info .authentication "KIS access token obtained"
          [("token", .text (Mask.accessToken token)),
            ("expires", .text (Text.quotedOption r.expiry))]
      | _, _ => return reply
      return reply
    else
      Attempt.ofAct <| Act.emit .error .authentication "Token request failed"
        [("status", .text answer.statusText)]
      throw (.ofRefusal answer)

end DailyBars
