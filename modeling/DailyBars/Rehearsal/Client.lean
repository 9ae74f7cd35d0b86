import DailyBars.Broker.Client
import DailyBars.Rehearsal.Server
import DailyBars.Rehearsal.Tokens

/-!
# The rehearsal of the broker's client

The issuer, the token cache and the client for prices against a server with a script.
-/

namespace DailyBars

/-- The world of a rehearsal of the broker's client. -/
structure ClientWorld where
  server : RehearsalServer
  shelf : RehearsalShelf
  desk : TokenDesk
  pacing : Pacing

namespace ClientWorld

/-- The server. -/
def http : HttpExchange ClientWorld :=
  RehearsalServer.exchange ⟨(·.server), fun s w => { w with server := s }⟩

/-- The issuer. -/
def issuer (config : BrokerConfig) : TokenIssuer ClientWorld :=
  TokenIssuer.atServer http config.baseUrl

/-- The token cache. -/
def tokens (config : BrokerConfig) (tokenSeal : TokenSeal) (hasher : AccountHasher) :
    TokenCache ClientWorld where
  config
  issuer := issuer config
  store := RehearsalShelf.store ⟨(·.shelf), fun s w => { w with shelf := s }⟩
  tokenSeal
  hasher
  desk := ⟨(·.desk), fun d w => { w with desk := d }⟩
  freshNonce := return .ofBytes []

/-- The client, with a token that is given or from the cache. -/
def client (config : BrokerConfig) (token : Attempt ClientWorld BrokerError String) :
    PriceClient ClientWorld :=
  ⟨config, http, token, ⟨(·.pacing), fun p w => { w with pacing := p }⟩⟩

/-- The requests since they were last taken. -/
def takeRequests : Act ClientWorld (List HttpRequest) :=
  Act.onWorld fun w => (w.server.takeRequests.1, { w with server := w.server.takeRequests.2 })

end ClientWorld

/-- Writes a reply. -/
def TokenReply.toJson (r : TokenReply) : Json :=
  .obj [("token", .str? r.token?), ("expired", .str? r.expiry), ("token_type", .str? r.tokenType),
    ("expires_in", Json.orNull .int r.lifetime)]

/-- Writes a failure without the wording that depends on the network. -/
def BrokerError.toJsonOffline (e : BrokerError) : Json :=
  match e with
  | network _ | timeout _ | unknown _ => failureToJson e.kindName none
  | e => e.toJson

end DailyBars
