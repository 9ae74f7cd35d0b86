import DailyBars.Cipher.Aes256
import DailyBars.Cipher.Sha256

/-!
# Galois/counter mode

Authenticated encryption of NIST SP 800-38D over AES-256, with a nonce of twelve bytes and nothing
besides the message to authenticate. A sealed message is its ciphertext followed by a tag of sixteen
bytes; opening gives the message back exactly if the tag is the one that sealing would have made.
-/

namespace DailyBars.Gcm

/-- The number of bytes of a nonce. -/
def nonceSize : Nat := 12

/-- The number of bytes of a tag. -/
def tagSize : Nat := 16

/-- The number that a list of bytes writes, most significant first. -/
def numberOf (bs : List UInt8) : Nat := bs.foldl (fun n b => n * 256 + b.toNat) 0

/-- The polynomial that reduces products: x^7 + x^2 + x + 1, bits in reflected order. -/
def reduction : Nat := 0xE1 * Nat.pow 2 120

/-- Adds the multiples of `v` that the top `n` bits of `x` (of 128) select to `z`. -/
def multiplyFrom (x : Nat) (z v : Nat) : Nat → Nat
  | 0 => z
  | n + 1 =>
    let z := if x.testBit n then z ^^^ v else z
    let v := if v % 2 = 1 then (v / 2) ^^^ reduction else v / 2
    multiplyFrom x z v n

/-- The product of two elements of the field of 2^128 elements. -/
def multiply (x y : Nat) : Nat := multiplyFrom x 0 y 128

/-- Takes `n` blocks of sixteen bytes into the authentication sum, the last one filled up with
zeros. -/
def authenticate (h : Nat) (sum : Nat) (bs : List UInt8) : Nat → Nat
  | 0 => sum
  | n + 1 =>
    let block := bs.take 16
    let x := numberOf (block ++ List.replicate (16 - block.length) 0)
    authenticate h (multiply (sum ^^^ x) h) (bs.drop 16) n

/-- The number of blocks that `n` bytes take. -/
def blocksFor (n : Nat) : Nat := (n + 15) / 16

/-- The counter block with a given count. -/
def counterBlock (nonce : List UInt8) (count : Nat) : List UInt8 :=
  nonce ++ Sha256.bigEndian 4 count

/-- `n` blocks of the key stream from a given count on. -/
def keyStream (keys : List (List UInt8)) (nonce : List UInt8) (count : Nat) : Nat → List UInt8
  | 0 => []
  | n + 1 =>
    Aes256.encryptBlock keys (counterBlock nonce count) ++ keyStream keys nonce (count + 1) n

/-- Adds the key stream to a text: the same function encrypts and decrypts. -/
def applyStream (keys : List (List UInt8)) (nonce text : List UInt8) : List UInt8 :=
  Aes256.xor text (keyStream keys nonce 2 (blocksFor text.length))

/-- The tag of a ciphertext. -/
def tag (keys : List (List UInt8)) (nonce cipher : List UInt8) : List UInt8 :=
  let h := numberOf (Aes256.encryptBlock keys (List.replicate 16 0))
  let sum := authenticate h 0 cipher (blocksFor cipher.length)
  let sum := multiply (sum ^^^ (cipher.length * 8)) h
  Aes256.xor (Sha256.bigEndian 16 sum) (Aes256.encryptBlock keys (counterBlock nonce 1))

/-- Encrypts a message and appends its tag. -/
def sealed (key nonce message : List UInt8) : List UInt8 :=
  let keys := Aes256.roundKeys key
  let cipher := applyStream keys nonce message
  cipher ++ tag keys nonce cipher

/-- Opens a sealed message: `none` if it is shorter than a tag or the tag does not fit. -/
def opened? (key nonce box : List UInt8) : Option (List UInt8) :=
  if box.length < tagSize then none
  else
    let keys := Aes256.roundKeys key
    let cipher := box.take (box.length - tagSize)
    if box.drop (box.length - tagSize) = tag keys nonce cipher then
      some (applyStream keys nonce cipher)
    else none

end DailyBars.Gcm
