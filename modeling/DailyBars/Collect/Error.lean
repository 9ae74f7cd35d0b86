import DailyBars.Broker.Error
import DailyBars.Market.AssetType
import DailyBars.Settings.Error
import DailyBars.Storage.Error

/-!
# Failures of the collector

Every failure has one of three kinds, by where it comes from: the broker, a store, or anything else.
-/

namespace DailyBars

/-- What a failure means for the batch. -/
inductive FailureKind where
  /-- The broker failed; the next run asks again. -/
  | recoverable
  /-- A store failed; somebody has to look. -/
  | critical
  | unexpected
  deriving DecidableEq, Repr

/-- Why no strategy was found. -/
inductive DispatchError where
  | missingAssetType
  | unsupported (t : AssetType)
  deriving DecidableEq, Repr

/-- The wording of a failure. -/
def DispatchError.message : DispatchError → String
  | .missingAssetType => "Asset type is missing"
  | .unsupported t => "Unsupported asset type: " ++ t.name

/-- Why an instrument or a batch failed. -/
inductive CollectError where
  | broker (cause : BrokerError)
  | storage (cause : StorageError)
  | dispatch (cause : DispatchError)
  | invalidInstrument (reason : String)
  | config (reason : String)
  | internal (reason : String)
  deriving DecidableEq, Repr

namespace CollectError

/-- The wording of a failure. -/
def message : CollectError → String
  | broker e => e.message
  | storage e => e.message
  | dispatch e => e.message
  | invalidInstrument r => "Invalid instrument: " ++ r
  | config r => "Configuration error: " ++ r
  | internal r => "Internal error: " ++ r

/-- The kind of a failure. -/
def kind : CollectError → FailureKind
  | broker _ => .recoverable
  | storage _ => .critical
  | _ => .unexpected

/-- A failure of the start, as the collector reports it. -/
def ofSetup (e : SetupError) : CollectError :=
  if e.isConfig then .config e.message else .internal e.message

/-- A failure inside a store, as the collector reports it. -/
def ofData (e : DataError) : CollectError := .storage e.toStorage

end CollectError

end DailyBars
