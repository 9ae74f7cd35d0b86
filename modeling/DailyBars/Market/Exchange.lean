import DailyBars.Text.Characters

/-!
# Stock exchanges

The exchanges that instruments are listed on.
-/

namespace DailyBars

/-- A stock exchange. -/
inductive Exchange where
  /-- Korea. -/
  | krx
  /-- New York. -/
  | nys
  /-- Nasdaq. -/
  | nas
  /-- American Stock Exchange. -/
  | ams
  /-- Tokyo. -/
  | tse
  /-- Hong Kong. -/
  | hks
  /-- Shanghai. -/
  | shs
  /-- Shenzhen. -/
  | szs
  /-- Ho Chi Minh City. -/
  | hsx
  /-- Hanoi. -/
  | hnx
  deriving DecidableEq, Repr

namespace Exchange

/-- All exchanges. -/
def all : List Exchange := [krx, nys, nas, ams, tse, hks, shs, szs, hsx, hnx]

/-- The number under which the database keeps the exchange. -/
def code : Exchange → Int
  | krx => 1
  | nys => 10
  | nas => 11
  | ams => 12
  | tse => 13
  | hks => 14
  | shs => 15
  | szs => 16
  | hsx => 17
  | hnx => 18

/-- The exchange with a given number. -/
def ofCode? (n : Int) : Option Exchange := all.find? fun m => m.code == n

/-- The three letters by which the broker knows the exchange. -/
def letters : Exchange → String
  | krx => "KRX"
  | nys => "NYS"
  | nas => "NAS"
  | ams => "AMS"
  | tse => "TSE"
  | hks => "HKS"
  | shs => "SHS"
  | szs => "SZS"
  | hsx => "HSX"
  | hnx => "HNX"

/-- The exchange with given letters, capitals or not, with white space around them or not. -/
def ofLetters? (s : String) : Option Exchange :=
  all.find? fun m => Text.equalsIgnoringCase m.letters (Text.trim s)

end Exchange

end DailyBars
