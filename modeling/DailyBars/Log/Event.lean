import DailyBars.Text.Digits

/-!
# Log events

What the collector says about its work: a level, the part of the program that speaks, a message and
named fields. Numbers and truth values stay what they are; everything else is text by the time it
is logged, so that a credential can only be in an event through its mask.
-/

namespace DailyBars

/-- How urgent an event is. -/
inductive LogLevel where
  | error
  | warn
  | info
  /-- Of interest only to somebody who looks for a fault. -/
  | debug
  deriving DecidableEq, Repr

/-- The value of a field. -/
inductive LogValue where
  | text (s : String)
  | int (n : Int)
  | bool (b : Bool)
  deriving DecidableEq, Repr

/-- The parts of the program that speak, as filters name them. -/
inductive LogSource where
  | logging
  | program
  | context
  | batch
  | outcome
  | strategy
  | walk
  | dedup
  | lock
  | schedule
  | database
  | watchlist
  | priceStore
  | redis
  | authentication
  | tokens
  | prices
  /-- Whoever else uses the log. -/
  | other (name : String)
  deriving DecidableEq, Repr

/-- The name of a part: a path of which every beginning is a name for filters, too. -/
def LogSource.path : LogSource → String
  | .logging => "trader_core::logging"
  | .program => "trader_collector"
  | .context => "trader_collector::context"
  | .batch => "trader_collector::runner"
  | .outcome => "trader_collector::stats"
  | .strategy => "trader_collector::strategy"
  | .walk => "trader_collector::engine"
  | .dedup => "trader_collector::persist"
  | .lock => "trader_collector::lock"
  | .schedule => "trader_collector::scheduler"
  | .database => "trader_data::storage::database"
  | .watchlist => "trader_data::storage::instrument"
  | .priceStore => "trader_data::storage::daily_price"
  | .redis => "trader_data::storage::redis"
  | .authentication => "trader_exchange::connector::kis::auth"
  | .tokens => "trader_exchange::connector::kis::token_cache"
  | .prices => "trader_exchange::connector::kis::daily_price"
  | .other name => name

/-- One event. -/
structure LogEvent where
  level : LogLevel
  source : LogSource
  message : String
  fields : List (String × LogValue)
  deriving DecidableEq, Repr

namespace LogLevel

/-- The name of the level. -/
def name : LogLevel → String
  | error => "ERROR"
  | warn => "WARN"
  | info => "INFO"
  | debug => "DEBUG"

/-- How much has to be asked for before the level is written: less for the more urgent. -/
def rank : LogLevel → Nat
  | error => 1
  | warn => 2
  | info => 3
  | debug => 4

end LogLevel

namespace LogValue

/-- A natural number. -/
def nat (n : Nat) : LogValue := .int n

end LogValue

/-- An event is an alert when somebody has to look at it at once. -/
def LogEvent.isAlert (e : LogEvent) : Bool := e.fields.contains ("alert", .bool true)

end DailyBars
