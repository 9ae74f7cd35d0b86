import DailyBars.Collect.Error
import DailyBars.Json.Lookup
import DailyBars.Storage.Interface

/-!
# How failures are written

A failure is an object with the name of its kind and, where it has one, a message. In a description
the message is what the failure says of itself; in a record it is the whole wording.
-/

namespace DailyBars

/-- A failure of a kind, with its wording. -/
def failureToJson (kind : String) (message : Option String) : Json :=
  .obj (("error", .str kind) :: (message.map fun m => ("message", Json.str m)).toList)

/-- A result: what was given, or the failure. -/
def resultToJson {ε α : Type} (fail : ε → Json) (give : α → Json) : Except ε α → Json
  | .ok a => .obj [("ok", give a)]
  | .error e => fail e

namespace BrokerError

/-- The name of the kind of a failure. -/
def kindName : BrokerError → String
  | network _ => "NetworkError"
  | unauthorized _ => "Unauthorized"
  | accountNotFound _ => "AccountNotFound"
  | rateLimited => "RateLimited"
  | api _ _ => "ApiError"
  | parse _ => "ParseError"
  | invalidRequest _ => "InvalidRequest"
  | timeout _ => "Timeout"
  | unknown _ => "Unknown"

/-- The failure of a kind that a description asks for. -/
def ofKind (kind code text : String) : BrokerError :=
  match kind with
  | "NetworkError" => network text
  | "Unauthorized" => unauthorized text
  | "AccountNotFound" => accountNotFound text
  | "RateLimited" => rateLimited
  | "ApiError" => api code text
  | "ParseError" => parse text
  | "InvalidRequest" => invalidRequest text
  | "Timeout" => timeout text
  | _ => unknown text

/-- Reads a failure. -/
def ofJson (j : Json) : BrokerError :=
  ofKind (j.textAt "kind") (j.textAt "code") (j.textAt "message")

/-- Writes a failure. -/
def toJson (e : BrokerError) : Json := failureToJson e.kindName e.message

end BrokerError

namespace StorageError

/-- The failure of a kind that a description asks for. -/
def ofKind (kind text : String) : StorageError :=
  match kind with
  | "Connection" => connection text
  | "Query" => query text
  | _ => transaction text

/-- Reads a failure. -/
def ofJson (j : Json) : StorageError := ofKind (j.textAt "kind") (j.textAt "message")

/-- Reads a failure that may be missing. -/
def atField? (j : Json) (name : String) : Option StorageError := (j.at? name).map ofJson

/-- Writes a failure. -/
def toJson (e : StorageError) : Json := failureToJson e.kindName e.message

end StorageError

/-- Writes what stands in the way of a lock. -/
def LockError.toJson : LockError → Json
  | .store e => e.toJson
  | .beyondClock => failureToJson "panic" none

namespace DataError

/-- The failure of a kind that a description asks for: one of the store, or one of a database
statement. -/
def ofKind (kind text : String) : DataError :=
  match kind with
  | "ConnectionError" => connection text
  | "QueryError" => query text
  | "NotFound" => notFound text
  | "DuplicateError" => duplicate text
  | "CacheError" => cache text
  | "MigrationError" => migration text
  | "PoolExhausted" => poolExhausted
  | "InsertError" => insert text
  | "TransactionError" => transaction text
  | "RowNotFound" => ofDatabase .rowNotFound
  | "PoolTimedOut" => ofDatabase .poolTimedOut
  | "Io" => ofDatabase (.io text)
  | _ => ofDatabase (.protocol text)

end DataError

namespace CryptoError

/-- The wording of a failure, but for those whose wording depends on the reader of the encoding. -/
def ownMessage? (e : CryptoError) : Option String :=
  match e with
  | base64 _ | utf8 _ => none
  | e => some e.message

/-- Writes a failure. -/
def toJson (e : CryptoError) : Json := failureToJson e.kindName e.ownMessage?

end CryptoError

namespace SetupError

/-- Reads a failure. -/
def ofJson (j : Json) : SetupError :=
  let text := j.textAt "message"
  let n := j.natAt "n"
  match j.textAt "kind" with
  | "Config" => config text
  | "Crypto.InvalidKeyLength" => crypto (.invalidKeyLength n)
  | "Crypto.SecretTooShort" => crypto (.secretTooShort n)
  | "Crypto.EmptyInput" => crypto (.emptyInput text)
  | "Crypto.EncryptionFailed" => crypto (.encryptionFailed text)
  | "Crypto.DecryptionFailed" => crypto (.decryptionFailed text)
  | "Crypto.CiphertextTooShort" => crypto (.ciphertextTooShort n)
  | "Serialization" => serialization text
  | "InvalidInput" => invalidInput text
  | _ => internal text

/-- Writes a failure; of the wording of a bad configuration only what this library says itself. -/
def toJson (e : SetupError) : Json :=
  match e with
  | config reason =>
    let own := ["KIS 계좌", "기본 계좌", "kis.requests_per_second", "jobs."]
    failureToJson "Config" <| some <|
      if own.any (reason.startsWith ·) then e.message
      else if reason.startsWith "로그 레벨 파싱 실패" then (config "로그 레벨 파싱 실패").message
      else "<config>"
  | crypto c =>
    failureToJson ("Crypto." ++ c.kindName) (c.ownMessage?.map fun m => "암호화 에러: " ++ m)
  | serialization _ => failureToJson "Serialization" e.message
  | invalidInput _ => failureToJson "InvalidInput" e.message
  | internal _ => failureToJson "Internal" e.message

end SetupError

/-- The name of a kind of failure. -/
def FailureKind.name : FailureKind → String
  | .recoverable => "Recoverable"
  | .critical => "Critical"
  | .unexpected => "Unexpected"

/-- The kind of failure with a name. -/
def FailureKind.ofName (s : String) : FailureKind :=
  match s with
  | "Recoverable" => .recoverable
  | "Critical" => .critical
  | _ => .unexpected

namespace CollectError

/-- The name of the kind of a failure. -/
def kindName : CollectError → String
  | broker e => "Exchange." ++ e.kindName
  | storage e => "Storage." ++ e.kindName
  | dispatch .missingAssetType => "Dispatch.MissingAssetType"
  | dispatch (.unsupported _) => "Dispatch.Unsupported"
  | invalidInstrument _ => "InvalidInstrument"
  | config _ => "Config"
  | internal _ => "Internal"

/-- Reads a failure. -/
def ofJson (j : Json) : CollectError :=
  let text := j.textAt "message"
  match (j.textAt "kind").splitOn "." with
  | ["Exchange", kind] => broker (.ofKind kind (j.textAt "code") text)
  | ["Storage", kind] => storage (.ofKind kind text)
  | ["Dispatch", "MissingAssetType"] => dispatch .missingAssetType
  | ["Dispatch", _] => dispatch (.unsupported ((AssetType.ofName? text).getD .domesticStock))
  | ["InvalidInstrument"] => invalidInstrument text
  | ["Config"] => config text
  | _ => internal text

/-- Writes a failure, with its wording or without. -/
def toJsonWith (wording : Bool) (e : CollectError) : Json :=
  .obj ([("error", .str e.kindName), ("failure", .str e.kind.name)] ++
    if wording then [("message", .str e.message)] else [])

/-- Writes a failure. -/
def toJson (e : CollectError) : Json := e.toJsonWith true

end CollectError

end DailyBars
