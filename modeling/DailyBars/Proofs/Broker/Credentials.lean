import DailyBars.Broker.Client
import DailyBars.Broker.TokenCache
import DailyBars.Proofs.Cipher.Seal
import DailyBars.Proofs.Json.Redacted
import DailyBars.Proofs.Json.Tokens

/-!
# Credentials that look the same behind their masks

Account numbers, keys and tokens that are different, but not in what their masks show. Whether a
request can be made with them is the same; and so is what is read of two answers of the issuer that
differ in their tokens only, but for the tokens.

Two ways to the broker are compared in this way, `BrokerAccess`: the configurations have such accounts
in the same places, and what is outside does the same on both sides, but for the tokens.
-/

namespace DailyBars

/-! ### Credentials -/

/-- The text is not blank, and it can stand in a header. -/
structure Sendable (s : String) : Prop where
  notBlank : Text.isBlankText s = false
  header : isHeaderText s

/-- Two credentials that look the same behind a mask: the same one, or two that can be sent. -/
def Mask.Conceals (mask : String → String) (s t : String) : Prop :=
  s = t ∨ mask s = mask t ∧ Sendable s ∧ Sendable t

namespace Mask.Conceals

variable {mask : String → String} {s t : String}

theorem refl (s : String) : Mask.Conceals mask s s := .inl rfl

theorem mask_eq (h : Mask.Conceals mask s t) : mask s = mask t := by
  obtain rfl | ⟨hmask, -⟩ := h
  · rfl
  · exact hmask

theorem isBlankText_eq (h : Mask.Conceals mask s t) :
    Text.isBlankText s = Text.isBlankText t := by
  obtain rfl | ⟨-, hs, ht⟩ := h
  · rfl
  · rw [hs.notBlank, ht.notBlank]

theorem isHeaderText_eq (h : Mask.Conceals mask s t) : isHeaderText s = isHeaderText t := by
  obtain rfl | ⟨-, hs, ht⟩ := h
  · rfl
  · rw [hs.header, ht.header]

theorem eq_or_ne_empty (h : Mask.Conceals mask s t) :
    s = t ∨ s.isEmpty = false ∧ t.isEmpty = false := by
  have hne {s : String} (hs : Sendable s) : s.isEmpty = false := by
    cases hempty : s.isEmpty with
    | false => rfl
    | true =>
        obtain rfl := String.isEmpty_iff.mp hempty
        cases hs.notBlank
  obtain heq | ⟨-, hs, ht⟩ := h
  · exact .inl heq
  · exact .inr ⟨hne hs, hne ht⟩

end Mask.Conceals

/-- Two access tokens that their mask shows the same. -/
abbrev TokensAlike : String → String → Prop := Mask.Conceals Mask.accessToken

/-- Two accounts that the masks show the same. -/
structure Account.Alike (a b : Account) : Prop where
  number : Mask.Conceals Mask.accountNumber a.number b.number
  appKey : Mask.Conceals Mask.appKey a.appKey b.appKey
  appSecret : Mask.Conceals Mask.appSecret a.appSecret b.appSecret

/-! ### Headers -/

theorem isHeaderText_append (s t : String) :
    isHeaderText (s ++ t) = (isHeaderText s && isHeaderText t) := by
  have hbytes : Text.bytes (s ++ t) = Text.bytes s ++ Text.bytes t := by
    simp [Text.bytes, String.toUTF8]
  rw [isHeaderText, hbytes, List.all_append]
  rfl

/-- Whether the headers of a request can be made does not tell the credentials in them. -/
theorem priceHeaders_alike {a b : Account} (hab : a.Alike b) {token token' : String}
    (htoken : TokensAlike token token') (code : String) :
    SameEnd (fun _ _ => True) (priceHeaders a token code) (priceHeaders b token' code) := by
  have hheader {s t : String} (name : String) (h : isHeaderText s = isHeaderText t) :
      SameEnd (fun _ _ => True) (header name s) (header name t) := by
    unfold header
    rw [h]
    split
    · exact .ok trivial
    · exact .error _
  have hbearer : isHeaderText ("Bearer " ++ token) = isHeaderText ("Bearer " ++ token') := by
    rw [isHeaderText_append, isHeaderText_append, htoken.isHeaderText_eq]
  unfold priceHeaders
  refine (hheader _ hbearer).bind fun _ _ _ => ?_
  refine (hheader _ hab.appKey.isHeaderText_eq).bind fun _ _ _ => ?_
  refine (hheader _ hab.appSecret.isHeaderText_eq).bind fun _ _ _ => ?_
  exact (hheader _ rfl).bind fun _ _ _ => .ok trivial

/-! ### The issuer's answers -/

/-- Two replies that are the same but for their tokens. -/
structure TokenReply.Alike (r q : TokenReply) : Prop where
  accessToken : Option.Rel TokensAlike r.accessToken q.accessToken
  expiry : r.expiry = q.expiry
  tokenType : r.tokenType = q.tokenType
  lifetime : r.lifetime = q.lifetime

theorem TokenReply.Alike.token? {r q : TokenReply} (h : r.Alike q) :
    Option.Rel TokensAlike r.token? q.token? := by
  obtain ⟨htoken, -, -, -⟩ := h
  unfold TokenReply.token?
  generalize r.accessToken = x, q.accessToken = y at htoken
  cases htoken with
  | none => exact .none
  | some hst =>
      rw [Option.filter_some, Option.filter_some, hst.isBlankText_eq]
      split
      · exact .some hst
      · exact .none

/-- The bodies of two answers of the issuer that are the same but for the texts of access tokens. -/
inductive BodiesAlike (success : Bool) : String → String → Prop where
  | same (s : String) : BodiesAlike success s s
  /-- Objects with the same fields. -/
  | object {s t : String} {es fs : List (Option String × Json)} :
      Json.ofText? s = some (.object es) → Json.ofText? t = some (.object fs) →
      List.Forall₂ (Json.FieldAlike "access_token" TokensAlike) es fs → BodiesAlike success s t
  /-- A reply written as the list of its fields, of which the token is the first. -/
  | list {s t u v : String} {items : List Json} : success = true →
      Json.ofText? s = some (.list (.str u :: items)) →
      Json.ofText? t = some (.list (.str v :: items)) → TokensAlike u v → BodiesAlike success s t
  /-- Texts that are no JSON, with the token in quotes somewhere. -/
  | broken {s t u v front back : String} : Json.ofText? s = none → Json.ofText? t = none →
      s = front ++ "\"" ++ u ++ "\"" ++ back → t = front ++ "\"" ++ v ++ "\"" ++ back →
      TokensAlike u v → BodiesAlike success s t

namespace BodiesAlike

variable {success : Bool} {s t : String}

/-- A text with a quotation mark in it is not just a null. -/
theorem not_trim_of_quote (h : '"' ∈ s.toList) :
    ¬ (Text.trim s = "" ∨ Text.trim s = "null") := by
  intro hnull
  obtain ⟨front, back, hfront, hback, hs⟩ := Text.exists_eq_trimChars s.toList
  have hquote : Text.isBlank '"' = false := by decide
  have hmiddle : '"' ∉ Text.trimChars s.toList := by
    rcases hnull with htrim | htrim
    · have hchars : Text.trimChars s.toList = [] := String.ofList_injective htrim
      simp [hchars]
    · have hchars : Text.trimChars s.toList = ['n', 'u', 'l', 'l'] :=
        String.ofList_injective htrim
      simp [hchars]
  rw [hs, List.mem_append, List.mem_append] at h
  rcases h with h | h | h
  · exact absurd (hfront _ h) (by simp [hquote])
  · exact hmiddle h
  · exact absurd (hback _ h) (by simp [hquote])

/-- Of bodies that are alike, neither or both have nothing but a null in them, and unless they are the
same, they are read as records with the same problem or as records that are alike. -/
theorem read {ρ : Type} {R : ρ → ρ → Prop} (h : BodiesAlike success s t) (title : String)
    {fields : List (Decoder.Field ρ)} (start : ρ)
    (hfields : ∀ f ∈ fields, f.Keeps "access_token" TokensAlike R) (hstart : R start start)
    (hfirst : success = true → (fields.head?.map (·.name)) = some "access_token") :
    s = t ∨ ¬ (Text.trim s = "" ∨ Text.trim s = "null") ∧
      ¬ (Text.trim t = "" ∨ Text.trim t = "null") ∧
      SameEnd R (Decoder.ofText (Decoder.record title fields start) s)
        (Decoder.ofText (Decoder.record title fields start) t) := by
  have notNull {s : String} {v : Json} (hs : Json.ofText? s = some v) (hv : v ≠ .null) :
      ¬ (Text.trim s = "" ∨ Text.trim s = "null") := by
    intro hnull
    rcases Json.ofText?_of_trim hnull with hnone | hnull
    · rw [hs] at hnone
      cases hnone
    · rw [hs] at hnull
      exact hv (Option.some.inj hnull)
  cases h with
  | same => exact .inl rfl
  | object hs ht hes =>
      refine .inr ⟨notNull hs nofun, notNull ht nofun, ?_⟩
      exact Decoder.ofText_alike hs ht (Decoder.record_alike title hfields hes hstart)
        (Json.isReadable_object_eq hes _)
  | list hsuccess hs ht huv =>
      -- The token is the first item, and the first field of a reply is the one for it.
      refine .inr ⟨notNull hs nofun, notNull ht nofun, ?_⟩
      cases fields with
      | nil => cases hfirst hsuccess
      | cons f rest =>
          have hname : f.name = "access_token" := Option.some.inj (hfirst hsuccess)
          exact Decoder.ofText_alike hs ht
            (Decoder.record_list_alike title hname hfields huv hstart _)
            (Json.isReadable_list_eq _ _ _ _)
  | broken hs ht hsplit hsplit' _ =>
      -- Neither body is blank or a null, as there are quotes in both; and both are no JSON.
      have hquote : '"' ∈ s.toList ∧ '"' ∈ t.toList := by simp [hsplit, hsplit']
      refine .inr ⟨not_trim_of_quote hquote.1, not_trim_of_quote hquote.2, ?_⟩
      rw [Decoder.ofText, Decoder.ofText, hs, ht]
      exact .error _

end BodiesAlike

theorem TokenReply.Alike.refl (r : TokenReply) : r.Alike r :=
  ⟨optionRel_refl .refl _, rfl, rfl, rfl⟩

/-- Replies in bodies that are alike are alike. -/
theorem TokenReply.ofText_alike {s t : String} (h : BodiesAlike true s t) :
    SameEnd (Option.Rel TokenReply.Alike) (TokenReply.ofText s) (TokenReply.ofText t) := by
  have htoken : (Decoder.defaulted "access_token" (Decoder.option Decoder.string)
      fun r v => { r with accessToken := v }).Keeps "access_token" TokensAlike
        TokenReply.Alike := by
    rintro v w hvw r q ⟨-, hexpiry, htype, hlifetime⟩
    have hset {x y : Option String} (hxy : Option.Rel TokensAlike x y) :
        ({ r with accessToken := x } : TokenReply).Alike { q with accessToken := y } :=
      ⟨hxy, hexpiry, htype, hlifetime⟩
    obtain heq | ⟨u, u', huv, hv, hw⟩ := hvw
    · obtain rfl := congrArg Prod.snd heq
      exact (SameEnd.refl (optionRel_refl .refl) _).map fun _ _ hxy => hset hxy
    · obtain rfl := congrArg Prod.snd hv
      obtain rfl := congrArg Prod.snd hw
      exact .ok (hset (.some huv))
  have hfields : ∀ f ∈ [
      Decoder.defaulted "access_token" (Decoder.option Decoder.string)
        fun r v => { r with accessToken := v },
      Decoder.defaulted "access_token_token_expired" (Decoder.option Decoder.string)
        fun r v => { r with expiry := v },
      Decoder.defaulted "token_type" (Decoder.option Decoder.string)
        fun r v => { r with tokenType := v },
      Decoder.defaulted "expires_in" (Decoder.option Decoder.int64)
        fun r v => { r with lifetime := v }], f.Keeps "access_token" TokensAlike
          TokenReply.Alike := by
    intro f hf
    simp only [List.mem_cons, List.not_mem_nil, or_false] at hf
    rcases hf with rfl | rfl | rfl | rfl
    · exact htoken
    · exact Decoder.keeps_field (by decide) fun _ _ _ ⟨ht, _, htype, hlife⟩ =>
        ⟨ht, rfl, htype, hlife⟩
    · exact Decoder.keeps_field (by decide) fun _ _ _ ⟨ht, hexpiry, _, hlife⟩ =>
        ⟨ht, hexpiry, rfl, hlife⟩
    · exact Decoder.keeps_field (by decide) fun _ _ _ ⟨ht, hexpiry, htype, _⟩ =>
        ⟨ht, hexpiry, htype, rfl⟩
  rcases h.read "TokenResponse" ⟨none, none, none, none⟩ hfields (TokenReply.Alike.refl _)
    (fun _ => rfl) with rfl | ⟨hs, ht, hread⟩
  · exact SameEnd.refl (optionRel_refl .refl) _
  · rw [TokenReply.ofText, TokenReply.ofText, if_neg hs, if_neg ht]
    change SameEnd _ (Decoder.ofText TokenReply.decoder s) (Decoder.ofText TokenReply.decoder t)
      at hread
    generalize Decoder.ofText TokenReply.decoder s = x, Decoder.ofText TokenReply.decoder t = y
      at hread ⊢
    cases hread with
    | ok hrq => exact .ok (.some hrq)
    | error e => exact .error _

/-- The cause of a refusal tells nothing of a token. -/
theorem BrokerError.ofRefusal_eq {r q : HttpResponse} (hstatus : r.status = q.status)
    (h : BodiesAlike false r.text q.text) : ofRefusal r = ofRefusal q := by
  have hfields : ∀ f ∈ [
      Decoder.required "error_code" Decoder.string fun r v => { r with code := v },
      Decoder.required "error_description" Decoder.string
        fun r v => { r with description := v }],
      f.Keeps "access_token" TokensAlike (fun r q : TokenRefusal => r = q) := by
    intro f hf
    simp only [List.mem_cons, List.not_mem_nil, or_false] at hf
    rcases hf with rfl | rfl
    · exact Decoder.keeps_field (by decide) fun _ _ _ hrq => by rw [hrq]
    · exact Decoder.keeps_field (by decide) fun _ _ _ hrq => by rw [hrq]
  unfold ofRefusal
  rcases h.read "KisOAuthErrorResponse" ⟨"", ""⟩ hfields rfl nofun with
    heq | ⟨-, -, hread⟩
  · rw [heq, hstatus]
  · have hsame : Decoder.ofText TokenRefusal.decoder r.text =
        Decoder.ofText TokenRefusal.decoder q.text := hread.eq
    rw [hsame, hstatus]

/-! ### Two ways to the broker -/

/-- All through which tokens and prices are got, in a world of type `σ`. -/
structure BrokerAccess (σ : Type) where
  config : BrokerConfig
  http : HttpExchange σ
  store : ExpiringStore σ
  tokenSeal : TokenSeal
  hasher : AccountHasher
  desk : Part σ TokenDesk
  pacing : Part σ Pacing
  freshNonce : Act σ Nonce

/-- The options hold the accounts at the same place of two lists, or nothing. -/
inductive SamePlace (as bs : List Account) : Option Account → Option Account → Prop where
  | nowhere : SamePlace as bs none none
  | place {n : Nat} {a b : Account} :
      as[n]? = some a → bs[n]? = some b → SamePlace as bs (some a) (some b)

/-- Two boxes that are the same, or that hold tokens which their mask shows the same. -/
def BoxesAlike (tokenSeal : TokenSeal) (box box' : String) : Prop :=
  box = box' ∨ ∃ s t, tokenSeal.decrypt box = .ok s ∧ tokenSeal.decrypt box' = .ok t ∧
    TokensAlike s t

/-- Two answers of the issuer that are the same but for the tokens in them. -/
structure AnswersAlike (r q : HttpResponse) : Prop where
  status : r.status = q.status
  text : BodiesAlike r.isSuccess r.text q.text

/-- Two desks that are the same but for the tokens, where hashes in a relation stand for one account. -/
structure TokenDesk.Alike (P : String → String → Prop) (d e : TokenDesk) : Prop where
  held : ∀ h k, P h k → Option.Rel
    (fun t u : HeldToken => TokensAlike t.token u.token ∧ t.validUntil = u.validUntil)
    (d.held.lookup h) (e.held.lookup k)
  queue : ∀ h k, P h k → d.locks.queue h = e.locks.queue k

namespace BrokerAccess

variable {σ σ' : Type}

/-- The cache of tokens. -/
def tokens (x : BrokerAccess σ) : TokenCache σ where
  config := x.config
  issuer := .atServer x.http x.config.baseUrl
  store := x.store
  tokenSeal := x.tokenSeal
  hasher := x.hasher
  desk := x.desk
  freshNonce := x.freshNonce

/-- The client for prices, with its token from the cache. -/
def client (x : BrokerAccess σ) : PriceClient σ :=
  ⟨x.config, x.http, x.tokens.defaultToken, x.pacing⟩

/-- The hashes are those of the accounts at the same place. -/
def Paired (x : BrokerAccess σ) (y : BrokerAccess σ') (h k : String) : Prop :=
  ∃ (n : Nat) (a b : Account), x.config.accounts[n]? = some a ∧ y.config.accounts[n]? = some b ∧
    x.hasher.hash a.number = .ok h ∧ y.hasher.hash b.number = .ok k

/-- The configurations differ in credentials only, of which the masks show the same. -/
structure SameConfig (x : BrokerAccess σ) (y : BrokerAccess σ') : Prop where
  baseUrl : x.config.baseUrl = y.config.baseUrl
  accounts : List.Forall₂ Account.Alike x.config.accounts y.config.accounts
  defaultAccount : SamePlace x.config.accounts y.config.accounts x.config.defaultAccount?
    y.config.defaultAccount?
  tokenSeal : x.tokenSeal = y.tokenSeal
  /-- No two accounts have the same hash. -/
  distinct : (x.config.accounts.map fun a => x.hasher.hash a.number).Nodup
  distinct' : (y.config.accounts.map fun a => y.hasher.hash a.number).Nodup

variable {x : BrokerAccess σ} {y : BrokerAccess σ'} {h k h' k' : String} {n : Nat} {a b : Account}

/-- Accounts at the same place are alike. -/
theorem SameConfig.account (same : x.SameConfig y) (ha : x.config.accounts[n]? = some a)
    (hb : y.config.accounts[n]? = some b) : a.Alike b := by
  obtain ⟨hn, rfl⟩ := List.getElem?_eq_some_iff.mp ha
  obtain ⟨hn', rfl⟩ := List.getElem?_eq_some_iff.mp hb
  exact (List.forall₂_iff_get.mp same.accounts).2 n hn hn'

/-- Hashes of accounts at the same place stand for the same account on both sides. -/
theorem SameConfig.paired_iff (same : x.SameConfig y) (hpair : x.Paired y h k)
    (hpair' : x.Paired y h' k') : h = h' ↔ k = k' := by
  obtain ⟨n, a, b, ha, hb, hh, hk⟩ := hpair
  obtain ⟨m, a', b', ha', hb', hh', hk'⟩ := hpair'
  -- As no two accounts have the same hash, the hashes tell the places.
  have place {as : List Account} {hasher : AccountHasher} {n m : Nat} {a b : Account} {h h' : String}
      (nodup : (as.map fun a => hasher.hash a.number).Nodup) (ha : as[n]? = some a)
      (hb : as[m]? = some b) (hh : hasher.hash a.number = .ok h) (hh' : hasher.hash b.number = .ok h') :
      h = h' ↔ n = m := by
    constructor
    · rintro rfl
      have hn : n < as.length := (List.getElem?_eq_some_iff.mp ha).1
      refine (List.getElem?_inj (by simpa using hn) nodup).mp ?_
      rw [List.getElem?_map, List.getElem?_map, ha, hb]
      simp [hh, hh']
    · rintro rfl
      obtain rfl := Option.some.inj (ha.symm.trans hb)
      exact Except.ok.inj (hh.symm.trans hh')
  rw [place same.distinct ha ha' hh hh', place same.distinct' hb hb' hk hk']

/-- From worlds in a relation, what is outside does the same on both sides, but for the tokens that
the issuer gives and that the store keeps, of which the mask shows the same. -/
structure SameOutside (W : σ → σ' → Prop) (x : BrokerAccess σ) (y : BrokerAccess σ') : Prop where
  issue : ∀ (n : Nat) (a b : Account), x.config.accounts[n]? = some a →
    y.config.accounts[n]? = some b →
    Attempt.Alike W AnswersAlike (x.http (tokenRequest x.config.baseUrl a))
      (y.http (tokenRequest y.config.baseUrl b))
  ask : ∀ (path : String) (query headers headers' : List (String × String)),
    Attempt.Alike W (fun r q => r = q)
      (x.http ⟨.get, x.config.baseUrl, path, query, headers, none⟩)
      (y.http ⟨.get, y.config.baseUrl, path, query, headers', none⟩)
  get : ∀ h k, x.Paired y h k →
    Attempt.Alike W (Option.Rel (BoxesAlike x.tokenSeal)) (x.store.get ("kis:token:" ++ h))
      (y.store.get ("kis:token:" ++ k))
  set : ∀ h k box box' ttl, x.Paired y h k → BoxesAlike x.tokenSeal box box' →
    Attempt.Alike W (fun _ _ => True) (x.store.set ("kis:token:" ++ h) box ttl)
      (y.store.set ("kis:token:" ++ k) box' ttl)
  freshNonce : Act.Alike W (fun _ _ => True) x.freshNonce y.freshNonce
  desk : ∀ w v, W w v → (x.desk.get w).Alike (x.Paired y) (y.desk.get v)
  setDesk : ∀ w v d e, W w v → TokenDesk.Alike (x.Paired y) d e →
    W (x.desk.set d w) (y.desk.set e v)
  pacing : ∀ w v, W w v → x.pacing.get w = y.pacing.get v
  setPacing : ∀ w v p, W w v → W (x.pacing.set p w) (y.pacing.set p v)

end BrokerAccess

end DailyBars
