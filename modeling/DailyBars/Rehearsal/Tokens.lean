import DailyBars.Rehearsal.Crowd
import DailyBars.Rehearsal.Failures
import DailyBars.Rehearsal.Notation
import DailyBars.Rehearsal.Shelf

/-!
# The rehearsal of a token cache

A token cache over a shelf and an issuer that has a list of answers for each account.
-/

namespace DailyBars

/-- An issuer with answers for each account number. -/
structure RehearsalIssuer where
  answers : List (String × List (Except BrokerError (Option TokenReply)))
  /-- The account numbers that a token was asked for, oldest first. -/
  asked : List String

namespace RehearsalIssuer

/-- The next answer for an account. -/
def issue (i : RehearsalIssuer) (account : Account) :
    Except BrokerError (Option TokenReply) × RehearsalIssuer :=
  let left := (i.answers.lookup account.number).getD []
  (left.headD (.error (.network "no scripted response")),
    ⟨(account.number, left.tail) :: i.answers.filter (·.1 != account.number),
      i.asked ++ [account.number]⟩)

/-- Reads an answer: nothing, a failure, or a reply. -/
def answerOfJson (j : Json) : Except BrokerError (Option TokenReply) :=
  match j.at? "error", TokenReply.decoder .value j with
  | some e, _ => .error (.ofJson e)
  | none, .ok reply => .ok (some reply)
  | none, .error _ => .ok none

/-- Reads an issuer. -/
def ofJson (j : Json) : RehearsalIssuer :=
  ⟨j.entries.map fun (number, answers) => (number, answers.items.map answerOfJson), []⟩

/-- Writes how often a token was asked for, by account number. -/
def countsToJson (i : RehearsalIssuer) : Json :=
  .obj (i.asked.eraseDups.map fun number => (number, .nat (i.asked.count number)))

end RehearsalIssuer

/-- The world of a rehearsal of a token cache. -/
structure TokenWorld where
  shelf : RehearsalShelf
  issuer : RehearsalIssuer
  desk : TokenDesk
  /-- The account hashes for whose lock somebody got in line, oldest first. -/
  joined : List String

namespace TokenWorld

/-- The shelf. -/
def shelfPart : Part TokenWorld RehearsalShelf := ⟨(·.shelf), fun s w => { w with shelf := s }⟩

/-- The issuer. -/
def issuerPart : Part TokenWorld RehearsalIssuer := ⟨(·.issuer), fun i w => { w with issuer := i }⟩

/-- The desk. -/
def deskPart : Part TokenWorld TokenDesk := ⟨(·.desk), fun d w => { w with desk := d }⟩

/-- The cache over the world. -/
def cache (config : BrokerConfig) (tokenSeal : TokenSeal) (hasher : AccountHasher) :
    TokenCache TokenWorld where
  config
  issuer account := ExceptT.mk (Act.onPart issuerPart (·.issue account))
  store := RehearsalShelf.store shelfPart
  tokenSeal
  hasher
  desk := deskPart
  freshNonce := return .ofBytes []

/-- Makes calls together and gives their results in order; a call that no account answers to has its
result at once. -/
def answers (t : TokenCache TokenWorld) (calls : List (Except BrokerError TokenCall)) :
    Act TokenWorld (List (Except BrokerError String)) := do
  let note (c : TokenCall) : Act TokenWorld Unit :=
    Act.onWorld fun w => ((), { w with joined := w.joined ++ [c.hash] })
  let results ← Crowd.answer t note (calls.filterMap (·.toOption))
  return calls.map fun c => match c with
    | .error e => .error e
    | .ok c => (results.lookup c.caller).getD (.error (.unknown "the call did not come to its end"))

end TokenWorld

/-- Reads the seal and the hasher of a rehearsal, each with a default secret. -/
def secretsOfJson (j : Json) : Except CryptoError (TokenSeal × AccountHasher) := do
  let key := (j.textAt? "token_key").getD "MDEyMzQ1Njc4OWFiY2RlZjAxMjM0NTY3ODlhYmNkZWY="
  let secret := (j.textAt? "hash_secret").getD "0123456789abcdef0123456789abcdef"
  return (← TokenSeal.ofText key, ← AccountHasher.ofText secret)

/-- Reads the configuration of a client from a list of accounts. -/
def BrokerConfig.ofJson (j : Json) : BrokerConfig :=
  { BrokerConfig.ofAccounts .real ((j.itemsAt "accounts").map Account.ofJson) with
    defaultAccountName := j.textAt? "default_account" }

end DailyBars
