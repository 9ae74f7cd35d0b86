import DailyBars.Broker.AccountLocks
import DailyBars.Broker.Config
import DailyBars.Broker.TokenReply
import DailyBars.Cipher.Secrets
import DailyBars.Storage.Interface

/-!
# The cache of access tokens

A call for the token of an account looks for it in the store. If it is not there, the call takes the
account's lock and looks again, for another caller may have left a token meanwhile; only then it
asks the issuer, keeps what it gets in the process and in the store, and lets the lock go. Callers
that come together so share one token.

A call goes through stages, and each stage is one step: calls may be interleaved between any two
steps. While the store does not answer, the token that the process was issued last stands in, so
that an outage of the store does not become a storm of requests to the issuer.

Outside the process an account is known by its hash only, and a token is sealed.
-/

namespace DailyBars

/-- A token that this process was issued. -/
structure HeldToken where
  token : String
  /-- From this instant on the token is no longer served. -/
  validUntil : Instant
  deriving DecidableEq, Repr

/-- What the calls of a process share: the tokens it was issued last, by the hash of the account,
and the locks of the accounts. -/
structure TokenDesk where
  held : List (String × HeldToken)
  locks : AccountLocks
  deriving DecidableEq, Repr

namespace TokenDesk

/-- The desk of a process that was never asked. -/
def empty : TokenDesk := ⟨[], .empty⟩

/-- Keeps a token for an account, in place of the one before it. -/
def keep (d : TokenDesk) (hash : String) (t : HeldToken) : TokenDesk :=
  { d with held := (hash, t) :: d.held.filter (·.1 ≠ hash) }

/-- The token that may still be served for an account. -/
def servable? (d : TokenDesk) (hash : String) (now : Instant) : Option String :=
  ((d.held.lookup hash).filter fun t => decide (now < t.validUntil)).map (·.token)

end TokenDesk

/-- A cache of tokens over a world of type `σ`. -/
structure TokenCache (σ : Type) where
  config : BrokerConfig
  issuer : TokenIssuer σ
  store : ExpiringStore σ
  tokenSeal : TokenSeal
  hasher : AccountHasher
  desk : Part σ TokenDesk
  /-- A nonce that was never used before. -/
  freshNonce : Act σ Nonce

/-- A call for the token of an account. -/
structure TokenCall where
  account : Account
  /-- The hash of the account's number. -/
  hash : String
  /-- What tells the call from others at the account's lock. -/
  caller : Nat
  deriving DecidableEq, Repr

/-- The key under which the store keeps the token of the account. -/
def TokenCall.key (c : TokenCall) : String := "kis:token:" ++ c.hash

/-- Where a call is. -/
inductive TokenStage where
  /-- About to read the store, with the account's lock or without. -/
  | reading (locked : Bool)
  /-- The store has answered. -/
  | judging (locked : Bool) (answer : Except StorageError (Option String))
  /-- About to get in line for the lock. -/
  | joining
  /-- In line. -/
  | waiting
  /-- About to ask the issuer, with the lock. -/
  | issuing
  /-- The issuer, asked at an instant, has answered. -/
  | weighing (issuedAt : Instant) (reply : Except BrokerError (Option TokenReply))
  /-- About to keep a token in the process. -/
  | keeping (token : String) (validUntil : Instant) (ttl : Nat)
  /-- About to write a token to the store, for a number of nanoseconds. -/
  | writing (token : String) (ttl : Nat)
  /-- About to let the lock go. -/
  | releasing (result : Except BrokerError String)
  /-- At its end. -/
  | done (result : Except BrokerError String)

/-- The time by which a token is given up before its end, in seconds, so that the broker does not
refuse it on the way. -/
def TokenReply.margin : Int := 300

/-- The instant from which on the token of a reply is no longer served. -/
def TokenReply.servedUntil? (r : TokenReply) (issuedAt : Instant) : Option Instant :=
  (r.expiresAt? issuedAt).bind (·.addSeconds? (-margin))

namespace TokenCache

variable {σ : Type}

/-- The call for an account. -/
def callOf (t : TokenCache σ) (account : Account) (caller : Nat) : Except BrokerError TokenCall :=
  match t.hasher.hash account.number with
  | .ok hash => .ok ⟨account, hash, caller⟩
  | .error e => .error (.invalidRequest e.message)

/-- The call for the account that answers to a name or number. -/
def callFor (t : TokenCache σ) (reference : String) (caller : Nat) :
    Except BrokerError TokenCall :=
  match t.config.findAccount? reference with
  | some a => t.callOf a caller
  | none =>
    .error (.accountNotFound
      ("설정된 계좌 중 '" ++ Mask.accountNumber reference ++ "'와 일치하는 계좌가 없습니다"))

/-- The call for the account that asks for prices. -/
def callForDefault (t : TokenCache σ) (caller : Nat) : Except BrokerError TokenCall :=
  match t.config.defaultAccount? with
  | some a => t.callOf a caller
  | none => .error (.accountNotFound "기본 계좌가 설정되지 않았습니다")

/-- Says that something went wrong that costs no more than a token. -/
def warn (message reason : String) : Act σ Unit :=
  Act.emit .warn .tokens message [("error", .text reason)]

/-- The token that an answer of the store gives. A text that cannot be opened counts as none; the
process's own token stands in only for a store that does not answer. -/
def judge (t : TokenCache σ) (c : TokenCall) :
    Except StorageError (Option String) → Act σ (Option String)
  | .ok none => return none
  | .ok (some box) => do
    match t.tokenSeal.decrypt box with
    | .ok token => return some token
    | .error e =>
      warn "Cached token could not be decrypted, ignoring entry" e.message
      return none
  | .error e => do
    warn "Token cache read failed, using in-process token" e.message
    let now ← Act.now
    Act.onPart t.desk fun d => (d.servable? c.hash now, d)

/-- Writes a token to the store. -/
def write (t : TokenCache σ) (c : TokenCall) (token : String) (ttl : Nat) : Act σ Unit := do
  let nonce ← t.freshNonce
  match t.tokenSeal.encrypt nonce token with
  | .error e => warn "Token encryption failed, not caching" e.message
  | .ok box =>
    match ← (t.store.set c.key box ttl).run with
    | .ok () => Act.emit .info .tokens "Access token cached" [("ttl_secs", .nat (ttl / 1000000000))]
    | .error e => warn "Token cache write failed" e.message

/-- The stage after the issuer's answer. A token that is about to end is given to its caller but not
kept. -/
def weigh (c : TokenCall) (issuedAt : Instant) :
    Except BrokerError (Option TokenReply) → Act σ TokenStage
  | .error e => return .releasing (.error e)
  | .ok none => return .releasing (.error (.unauthorized "토큰 발급 응답이 비어 있습니다"))
  | .ok (some reply) => do
    match reply.token? with
    | none => return .releasing (.error (.unauthorized "토큰 발급 응답에 access_token이 없습니다"))
    | some token =>
      let now ← Act.now
      match (reply.servedUntil? issuedAt).filter fun u => decide (0 < u.since now) with
      | some validUntil => return .keeping token validUntil (validUntil.since now).toNat
      | none =>
        Act.emit .warn .tokens "Token expires too soon to cache, returning without caching"
          [("account", .text (Mask.accountNumber c.account.number)),
            ("expires", .text (Text.quotedOption reply.expiry))]
        return .releasing (.ok token)

/-- One step of a call. A call in line stays where it is until the lock is its own. -/
def step (t : TokenCache σ) (c : TokenCall) : TokenStage → Act σ TokenStage
  | .reading locked => do return .judging locked (← (t.store.get c.key).run)
  | .judging locked answer => do
    match ← t.judge c answer, locked with
    | some token, true =>
      Act.emit .debug .tokens "Token refreshed by another caller" [("account", .text c.hash)]
      return .releasing (.ok token)
    | some token, false => return .done (.ok token)
    | none, true => return .issuing
    | none, false => return .joining
  | .joining => do
    Act.onPart t.desk fun d => ((), { d with locks := d.locks.join c.hash c.caller })
    return .waiting
  | .waiting => do
    let holder ← Act.onPart t.desk fun d => (d.locks.holder? c.hash, d)
    return if holder = some c.caller then .reading true else .waiting
  | .issuing => do
    let now ← Act.now
    return .weighing now (← (t.issuer c.account).run)
  | .weighing issuedAt reply => weigh c issuedAt reply
  | .keeping token validUntil ttl => do
    Act.onPart t.desk fun d => ((), d.keep c.hash ⟨token, validUntil⟩)
    return .writing token ttl
  | .writing token ttl => do
    t.write c token ttl
    return .releasing (.ok token)
  | .releasing result => do
    Act.onPart t.desk fun d => ((), { d with locks := d.locks.release c.hash })
    return .done result
  | .done result => return .done result

/-- Goes on with a call that has no company, for a number of steps at most. -/
def finish (t : TokenCache σ) (c : TokenCall) : Nat → TokenStage → Act σ TokenStage
  | _, .done result => return .done result
  | 0, stage => return stage
  | n + 1, stage => do finish t c n (← t.step c stage)

/-- More steps than a call takes when nobody else is at the lock. -/
def stepLimit : Nat := 12

/-- Makes a call that has no company. One that does not come to its end waits for a lock that nobody
will let go. -/
def answer (t : TokenCache σ) (c : TokenCall) : Attempt σ BrokerError String :=
  ExceptT.mk do
    match ← t.finish c stepLimit (.reading false) with
    | .done result => return result
    | _ => return .error (.unknown "the lock of the account is not free")

/-- The token of the account that answers to a name or number. -/
def accessToken (t : TokenCache σ) (reference : String) : Attempt σ BrokerError String := do
  t.answer (← Attempt.ofResult (t.callFor reference 0))

/-- The token of the account that asks for prices. -/
def defaultToken (t : TokenCache σ) : Attempt σ BrokerError String := do
  t.answer (← Attempt.ofResult (t.callForDefault 0))

end TokenCache

end DailyBars
