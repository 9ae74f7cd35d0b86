import DailyBars.Broker.Error
import DailyBars.Log.Mask
import DailyBars.Text.Bytes
import DailyBars.Text.Quoted

/-!
# Accounts at the broker

An account has a name of our own, the broker's number and a pair of keys. With a token, its keys are
the headers of a request for prices.
-/

namespace DailyBars

/-- An account at the broker. -/
structure Account where
  name : String
  number : String
  appKey : String
  appSecret : String
  deriving DecidableEq, Repr

namespace Account

/-- Whether a reference, a name or a number, means this account. -/
def answersTo (a : Account) (reference : String) : Bool :=
  a.name == reference || a.number == reference

/-- What a diagnostic shows of an account, under the name of the type it is shown as. -/
def shownAs (title : String) (a : Account) : String :=
  title ++ " \x7b name: " ++ Text.quoted a.name ++
    ", account_number: " ++ Text.quoted (Mask.accountNumber a.number) ++
    ", app_key: " ++ Text.quoted (Mask.appKey a.appKey) ++ ", .. \x7d"

end Account

/-! ### The headers of a request for prices -/

/-- Whether a text can stand in a header: no control character but the tab. -/
def isHeaderText (s : String) : Bool :=
  (Text.bytes s).all fun b => (32 ≤ b && b ≠ 127) || b == 9

/-- A header, unless its value holds a character that cannot be sent. -/
def header (name value : String) : Except BrokerError (String × String) :=
  if isHeaderText value then .ok (name, value)
  else .error (.parse (name ++ "에 유효하지 않은 문자 포함"))

/-- The kind of content that is sent. -/
def jsonContent : String := "application/json; charset=utf-8"

/-- The headers of a price request of an account with its token. The customer is a private one. -/
def priceHeaders (account : Account) (token transaction : String) :
    Except BrokerError (List (String × String)) := do
  let authorization ← header "authorization" ("Bearer " ++ token)
  let appKey ← header "appkey" account.appKey
  let appSecret ← header "appsecret" account.appSecret
  let code ← header "tr_id" transaction
  return [("content-type", jsonContent), authorization, appKey, appSecret, code, ("custtype", "P")]

end DailyBars
