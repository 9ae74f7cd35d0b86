import DailyBars.Text.Characters

/-!
# Asset types

What kind of security an instrument is: a stock or an index, at home or overseas.
-/

namespace DailyBars

/-- The kind of a security. -/
inductive AssetType where
  | domesticStock
  | domesticIndex
  | overseasStock
  | overseasIndex
  deriving DecidableEq, Repr

namespace AssetType

/-- All asset types. -/
def all : List AssetType := [domesticStock, domesticIndex, overseasStock, overseasIndex]

/-- The number under which the database keeps the type. -/
def code : AssetType → Int
  | domesticStock => 1
  | domesticIndex => 2
  | overseasStock => 3
  | overseasIndex => 4

/-- The type with a given number. -/
def ofCode? (n : Int) : Option AssetType := all.find? fun t => t.code == n

/-- The name of the type. -/
def name : AssetType → String
  | domesticStock => "DOMESTIC_STOCK"
  | domesticIndex => "DOMESTIC_INDEX"
  | overseasStock => "OVERSEAS_STOCK"
  | overseasIndex => "OVERSEAS_INDEX"

/-- The type with a given name, capitals or not. -/
def ofName? (s : String) : Option AssetType :=
  all.find? fun t => Text.equalsIgnoringCase t.name s

/-- What is said of a name that no type has. -/
def unknownName (s : String) : String := "Unknown asset type: " ++ s

/-- The name of the type in running text. -/
def displayName : AssetType → String
  | domesticStock => "domestic stock"
  | domesticIndex => "domestic index"
  | overseasStock => "overseas stock"
  | overseasIndex => "overseas index"

/-- Whether prices can only be asked for together with the exchange. -/
def needsExchange : AssetType → Bool
  | overseasStock | overseasIndex => true
  | domesticStock | domesticIndex => false

end AssetType

end DailyBars
