import DailyBars.Broker.Error
import DailyBars.Settings.App
import DailyBars.Text.Characters
import DailyBars.Text.Digits

/-!
# Configuration of the broker's client

The environment, the accounts and the account by which prices are asked for.
-/

namespace DailyBars

/-- Real or simulated trading; each has a server of its own. -/
inductive BrokerEnvironment where
  | real
  | paper
  deriving DecidableEq, Repr

namespace BrokerEnvironment

/-- The broker's server. -/
def baseUrl : BrokerEnvironment → String
  | real => "https://openapi.koreainvestment.com:9443"
  | paper => "https://openapivts.koreainvestment.com:29443"

/-- The words that choose an environment. -/
def words : List (String × BrokerEnvironment) :=
  [("real", real), ("prod", real), ("paper", paper), ("mock", paper), ("test", paper)]

/-- The environment that a word chooses, capitals or not. -/
def ofText? (s : String) : Option BrokerEnvironment :=
  (words.find? fun p => Text.lowercaseIs p.1 s).map (·.2)

/-- The name of the environment. -/
def name : BrokerEnvironment → String
  | real => "Real"
  | paper => "Paper"

end BrokerEnvironment

/-- How the broker is talked to. -/
structure BrokerConfig where
  environment : BrokerEnvironment
  /-- A server that stands in for the environment's. -/
  baseUrlOverride : Option String
  userId : Option String
  timeoutSecs : Nat
  requestsPerSecond : Nat
  accounts : List Account
  /-- The name of the account that asks for prices; the first account if there is none. -/
  defaultAccountName : Option String
  deriving DecidableEq, Repr

namespace BrokerConfig

/-- A configuration for a list of accounts. -/
def ofAccounts (environment : BrokerEnvironment) (accounts : List Account) : BrokerConfig :=
  ⟨environment, none, none, 10, 20, accounts, none⟩

/-- The configuration that the settings ask for. -/
def ofSettings (s : BrokerSettings) : Except BrokerError BrokerConfig :=
  match BrokerEnvironment.ofText? s.environment with
  | none => .error (.invalidRequest ("알 수 없는 KIS 환경: " ++ s.environment))
  | some environment =>
    if s.accounts.isEmpty then .error (.invalidRequest "KIS 계좌가 설정되지 않았습니다")
    else
      .ok ⟨environment, s.baseUrl, s.userId, s.timeoutSecs, max s.requestsPerSecond 1, s.accounts,
        s.defaultAccount⟩

/-- The server that is talked to. -/
def baseUrl (c : BrokerConfig) : String := c.baseUrlOverride.getD c.environment.baseUrl

/-- The first account that answers to a name or number. -/
def findAccount? (c : BrokerConfig) (reference : String) : Option Account :=
  c.accounts.find? (·.answersTo reference)

/-- The account that asks for prices. -/
def defaultAccount? (c : BrokerConfig) : Option Account :=
  match c.defaultAccountName with
  | some name => c.findAccount? name
  | none => c.accounts.head?

/-- What a diagnostic shows of the configuration. -/
def shown (c : BrokerConfig) : String :=
  "KisConfig \x7b environment: " ++ c.environment.name ++ ", base_url: " ++ Text.quoted c.baseUrl ++
    ", user_id: " ++ Text.quotedOption (c.userId.map Mask.userId) ++
    ", timeout: " ++ Text.duration (c.timeoutSecs * 1000000000) ++
    ", requests_per_second: " ++ Text.decimalText c.requestsPerSecond ++
    ", accounts: [" ++ ", ".intercalate (c.accounts.map (Account.shownAs "KisAccount")) ++ "]" ++
    ", default_account: " ++ Text.quotedOption c.defaultAccountName ++ " \x7d"

end BrokerConfig

end DailyBars
