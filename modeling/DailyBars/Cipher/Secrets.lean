import DailyBars.Cipher.Base64Problem
import DailyBars.Cipher.Gcm
import DailyBars.Text.Characters
import DailyBars.Text.Quoted
import DailyBars.Text.Utf8Problem

/-!
# Sealed tokens and hashed accounts

Access tokens leave the process only sealed under a master key, as `Base64(nonce, ciphertext, tag)`;
account numbers leave it only as a short keyed hash. The values that hold a key exist only for keys
that passed their checks.
-/

namespace DailyBars

/-- Why something could not be sealed, opened or hashed. -/
inductive CryptoError where
  | invalidKeyLength (bytes : Nat)
  | secretTooShort (characters : Nat)
  | emptyInput (what : String)
  | encryptionFailed (reason : String)
  | decryptionFailed (reason : String)
  | ciphertextTooShort (bytes : Nat)
  | base64 (problem : Base64Problem)
  | utf8 (reason : String)
  deriving DecidableEq, Repr

namespace CryptoError

/-- The wording of a failure. -/
def message : CryptoError → String
  | invalidKeyLength n =>
    "Invalid master key length: expected 32 bytes, got " ++ Text.decimalText n
  | secretTooShort n =>
    "HMAC secret too short: expected at least 32 characters, got " ++ Text.decimalText n
  | emptyInput what => "Empty input: " ++ what
  | encryptionFailed reason => "Encryption failed: " ++ reason
  | decryptionFailed reason => "Decryption failed: " ++ reason
  | ciphertextTooShort n => "Ciphertext too short: " ++ Text.decimalText n ++ " bytes"
  | base64 problem => "Base64 decode error: " ++ problem.message
  | utf8 reason => "UTF-8 decode error: " ++ reason

/-- The name of the kind of a failure. -/
def kindName : CryptoError → String
  | invalidKeyLength _ => "InvalidKeyLength"
  | secretTooShort _ => "SecretTooShort"
  | emptyInput _ => "EmptyInput"
  | encryptionFailed _ => "EncryptionFailed"
  | decryptionFailed _ => "DecryptionFailed"
  | ciphertextTooShort _ => "CiphertextTooShort"
  | base64 _ => "Base64DecodeError"
  | utf8 _ => "Utf8Error"

/-- What a diagnostic shows of a failure. -/
def shown (e : CryptoError) : String :=
  let detail := match e with
    | invalidKeyLength n | secretTooShort n | ciphertextTooShort n => Text.decimalText n
    | emptyInput s | encryptionFailed s | decryptionFailed s | utf8 s => Text.quoted s
    | base64 problem => problem.shown
  e.kindName ++ "(" ++ detail ++ ")"

end CryptoError

/-- A number that is used for one sealing only. -/
structure Nonce where
  bytes : List UInt8
  bytes_length : bytes.length = Gcm.nonceSize
  deriving DecidableEq

/-- The nonce of a list of bytes, cut or filled up with zeros where it is of the wrong length. -/
def Nonce.ofBytes (bs : List UInt8) : Nonce :=
  ⟨(bs ++ List.replicate Gcm.nonceSize 0).take Gcm.nonceSize, by simp [Gcm.nonceSize]⟩

/-- A master key of 32 bytes. -/
structure TokenSeal where
  key : List UInt8
  key_length : key.length = 32
  deriving DecidableEq

namespace TokenSeal

/-- Reads a master key in Base64, with white space around it or not. -/
def ofText (s : String) : Except CryptoError TokenSeal :=
  match Base64.ofText? (Text.trim s) with
  | none => .error (.base64 (Base64Problem.ofText (Text.trim s)))
  | some key =>
    if h : key.length = 32 then .ok ⟨key, h⟩ else .error (.invalidKeyLength key.length)

/-- Seals a text under a nonce. -/
def encrypt (k : TokenSeal) (nonce : Nonce) (plain : String) : Except CryptoError String :=
  if plain.isEmpty then .error (.emptyInput "plaintext")
  else .ok (Base64.text (nonce.bytes ++ Gcm.sealed k.key nonce.bytes (Text.bytes plain)))

/-- Opens a sealed text. -/
def decrypt (k : TokenSeal) (box : String) : Except CryptoError String :=
  if box.isEmpty then .error (.emptyInput "ciphertext")
  else
    match Base64.ofText? box with
    | none => .error (.base64 (Base64Problem.ofText box))
    | some bs =>
      if bs.length ≤ Gcm.nonceSize then .error (.ciphertextTooShort bs.length)
      else
        match Gcm.opened? k.key (bs.take Gcm.nonceSize) (bs.drop Gcm.nonceSize) with
        | none => .error (.decryptionFailed "aead::Error")
        | some plain =>
          match Text.ofBytes? plain with
          | none => .error (.utf8 (((Utf8Problem.find? plain).map (·.message)).getD ""))
          | some s => .ok s

/-- A fresh master key, from 32 random bytes. -/
def masterKey (random : List UInt8) : String := Base64.text random

/-- What a diagnostic shows of a seal. -/
def shown (_ : TokenSeal) : String := "TokenEncryptor \x7b .. \x7d"

end TokenSeal

/-- A secret of at least 32 characters under which account numbers are hashed. -/
structure AccountHasher where
  secret : List UInt8
  deriving DecidableEq

namespace AccountHasher

/-- The least number of characters of a secret. -/
def minSecretLength : Nat := 32

/-- The number of characters of a hash. -/
def hashLength : Nat := 16

/-- Takes a secret. -/
def ofText (s : String) : Except CryptoError AccountHasher :=
  if Text.isBlankText s then .error (.emptyInput "hmac secret")
  else if s.toList.length < minSecretLength then .error (.secretTooShort s.toList.length)
  else .ok ⟨Text.bytes s⟩

/-- The hash of an account number: the first sixteen hexadecimal digits of its keyed hash. -/
def hash (k : AccountHasher) (account : String) : Except CryptoError String :=
  if Text.isBlankText account then .error (.emptyInput "account number")
  else
    .ok (String.ofList ((Text.hexOf (Sha256.hmac k.secret (Text.bytes account))).take hashLength))

/-- What a diagnostic shows of a hasher. -/
def shown (_ : AccountHasher) : String := "AccountKeyHasher \x7b .. \x7d"

end AccountHasher

end DailyBars
