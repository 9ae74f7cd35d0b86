import DailyBars.Cipher.Secrets

/-!
# Failures of the start
-/

namespace DailyBars

/-- Why the program cannot start. -/
inductive SetupError where
  | config (reason : String)
  | crypto (cause : CryptoError)
  | serialization (reason : String)
  | invalidInput (reason : String)
  | internal (reason : String)
  deriving DecidableEq, Repr

namespace SetupError

/-- The wording of a failure. -/
def message : SetupError → String
  | config r => "설정 에러: " ++ r
  | crypto e => "암호화 에러: " ++ e.message
  | serialization r => "직렬화 에러: " ++ r
  | invalidInput r => "잘못된 입력: " ++ r
  | internal r => "내부 에러: " ++ r

/-- What a diagnostic shows of a failure. -/
def shown : SetupError → String
  | config r => "Config(" ++ Text.quoted r ++ ")"
  | crypto e => "Crypto(" ++ e.shown ++ ")"
  | serialization r => "Serialization(" ++ Text.quoted r ++ ")"
  | invalidInput r => "InvalidInput(" ++ Text.quoted r ++ ")"
  | internal r => "Internal(" ++ Text.quoted r ++ ")"

/-- Whether the configuration is at fault. -/
def isConfig : SetupError → Bool
  | config _ | crypto _ => true
  | _ => false

end SetupError

end DailyBars
