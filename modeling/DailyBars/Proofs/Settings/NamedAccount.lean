import DailyBars.Program.Collector
import DailyBars.Proofs.Broker.TokenRefusals
import DailyBars.Proofs.Rehearsal.Tokens

/-!
# The account that the settings name

The settings with which the program starts (`AppSettings.validate_eq_ok`) give a configuration of the
broker's client, a seal and a hasher. The account that asks for prices is the one that they name, if no
other one has the name as its number; and unless its number is blank, its tokens can be got: calls for
them fail only where the issuer refuses one (`AppSettings.fetches_of_validate`).
-/

namespace DailyBars

/-! ### What is checked before the start -/

/-- The settings with which the program starts. -/
structure AppSettings.IsSound (s : AppSettings) : Prop where
  accounts : s.broker.accounts ≠ []
  named : ∀ name, s.broker.defaultAccount = some name → ∃ a ∈ s.broker.accounts, a.name = name
  requests : s.broker.requestsPerSecond ≠ 0
  pages : s.jobs.instrumentPageSize ≠ 0
  locks : s.jobs.lockAtLeastSecs ≤ s.jobs.lockAtMostSecs
  tokenKey : ∃ tokenSeal, TokenSeal.ofText s.secrets.tokenKey = .ok tokenSeal
  hashSecret : ∃ hasher, AccountHasher.ofText s.secrets.keyHashSecret = .ok hasher

section Checks

variable {ε ε' α β : Type} {p : Prop} [Decidable p] {e : ε}

/-- What follows a check is reached if the check finds nothing. -/
theorem if_throw_eq_ok {x : Except ε α} {a : α} :
    (if p then throw e >>= fun _ : Unit => x else x) = .ok a ↔ ¬ p ∧ x = .ok a := by
  by_cases hp : p
  · rw [if_pos hp]
    exact ⟨fun h => (by cases h), fun h => absurd hp h.1⟩
  · simp [hp]

theorem if_else_throw_eq_ok {x : Except ε α} {a : α} :
    (if p then x else throw e >>= fun _ : Unit => x) = .ok a ↔ p ∧ x = .ok a := by
  rw [← ite_not, if_throw_eq_ok, not_not]

theorem mapError_bind_eq_ok {x : Except ε α} {wrap : ε → ε'} {f : α → Except ε' β} {b : β} :
    (x.mapError wrap >>= f) = .ok b ↔ ∃ a, x = .ok a ∧ f a = .ok b := by
  cases x <;> simp [bind, Except.bind, Except.mapError]

end Checks

/-- The checks one after the other. -/
theorem AppSettings.validate_eq_ok_iff_checks {s : AppSettings} : s.validate = .ok () ↔
    ¬ s.broker.accounts.isEmpty ∧
      (∀ name, s.broker.defaultAccount = some name → s.broker.accounts.any (·.name == name)) ∧
      ¬ s.broker.requestsPerSecond = 0 ∧ ¬ s.jobs.instrumentPageSize = 0 ∧
      ¬ s.jobs.lockAtMostSecs < s.jobs.lockAtLeastSecs ∧
      (∃ tokenSeal, TokenSeal.ofText s.secrets.tokenKey = .ok tokenSeal) ∧
      ∃ hasher, AccountHasher.ofText s.secrets.keyHashSecret = .ok hasher := by
  unfold validate
  cases s.broker.defaultAccount with
  | none =>
      dsimp only
      simp only [if_throw_eq_ok, mapError_bind_eq_ok]
      simp [pure, Except.pure]
  | some name =>
      dsimp only
      simp only [if_throw_eq_ok, if_else_throw_eq_ok, mapError_bind_eq_ok]
      simp [pure, Except.pure]

/-- **The program starts with sound settings only.** -/
theorem AppSettings.validate_eq_ok {s : AppSettings} : s.validate = .ok () ↔ s.IsSound := by
  rw [validate_eq_ok_iff_checks]
  simp only [List.isEmpty_iff, List.any_eq_true, beq_iff_eq, Nat.not_lt]
  exact ⟨fun ⟨haccounts, hnamed, hrequests, hpages, hlocks, hkey, hsecret⟩ =>
      ⟨haccounts, hnamed, hrequests, hpages, hlocks, hkey, hsecret⟩,
    fun h => ⟨h.accounts, h.named, h.requests, h.pages, h.locks, h.tokenKey, h.hashSecret⟩⟩

/-! ### The named account -/

namespace BrokerSettings

variable {s : BrokerSettings} {config : BrokerConfig} {name : String}

/-- The account that the settings name: the first one of the default name, or the first one at all if
there is no such name. -/
def namedAccount? (s : BrokerSettings) : Option Account :=
  match s.defaultAccount with
  | some name => s.accounts.find? (·.name == name)
  | none => s.accounts.head?

/-- No account in front of the named one has the default name as its number. -/
def NamesPlainly (s : BrokerSettings) : Prop :=
  ∀ name, s.defaultAccount = some name →
    ∀ a ∈ s.accounts.takeWhile (·.name != name), a.number ≠ name

/-- The first account that answers to a name is the first one of the name, if no account in front of it
has the name as its number. -/
theorem find?_answersTo {accounts : List Account}
    (h : ∀ a ∈ accounts.takeWhile (·.name != name), a.number ≠ name) :
    accounts.find? (·.answersTo name) = accounts.find? (·.name == name) := by
  induction accounts with
  | nil => rfl
  | cons a accounts ih =>
      by_cases hname : a.name = name
      · simp [Account.answersTo, hname]
      · rw [List.takeWhile_cons_of_pos (by simpa using hname), List.forall_mem_cons] at h
        obtain ⟨hnumber, hrest⟩ := h
        rw [List.find?_cons_of_neg (by simp [Account.answersTo, hname, hnumber]),
          List.find?_cons_of_neg (by simpa using hname), ih hrest]

/-- A configuration comes of settings with accounts and an environment that is known. -/
theorem exists_ofSettings (henvironment : (BrokerEnvironment.ofText? s.environment).isSome)
    (haccounts : s.accounts ≠ []) : ∃ config, BrokerConfig.ofSettings s = .ok config := by
  obtain ⟨environment, hknown⟩ := Option.isSome_iff_exists.mp henvironment
  unfold BrokerConfig.ofSettings
  rw [hknown]
  dsimp only
  rw [if_neg (by simpa using haccounts)]
  exact ⟨_, rfl⟩

theorem accounts_of_ofSettings (h : BrokerConfig.ofSettings s = .ok config) :
    config.accounts = s.accounts ∧ config.defaultAccountName = s.defaultAccount := by
  unfold BrokerConfig.ofSettings at h
  split at h
  · cases h
  · split at h
    · cases h
    · cases h
      exact ⟨rfl, rfl⟩

/-- The account that asks for prices is the named one. -/
theorem defaultAccount?_eq (h : BrokerConfig.ofSettings s = .ok config) (hplain : s.NamesPlainly) :
    config.defaultAccount? = s.namedAccount? := by
  obtain ⟨haccounts, hname⟩ := accounts_of_ofSettings h
  unfold BrokerConfig.defaultAccount? namedAccount? BrokerConfig.findAccount?
  rw [haccounts, hname]
  cases hdefault : s.defaultAccount with
  | none => rfl
  | some name => exact find?_answersTo (hplain name hdefault)

end BrokerSettings

/-- The settings with which the program starts give a configuration, a seal and a hasher. -/
theorem AppSettings.IsSound.exists_credentials {s : AppSettings} (h : s.IsSound)
    (henvironment : (BrokerEnvironment.ofText? s.broker.environment).isSome) :
    ∃ config tokenSeal hasher, BrokerConfig.ofSettings s.broker = .ok config ∧
      Collector.credentials s = .ok (config, tokenSeal, hasher) := by
  obtain ⟨config, hconfig⟩ := BrokerSettings.exists_ofSettings henvironment h.accounts
  obtain ⟨tokenSeal, hkey⟩ := h.tokenKey
  obtain ⟨hasher, hsecret⟩ := h.hashSecret
  refine ⟨config, tokenSeal, hasher, hconfig, ?_⟩
  unfold Collector.credentials
  rw [hconfig, hkey, hsecret]
  rfl

/-- They name an account. -/
theorem AppSettings.IsSound.exists_namedAccount {s : AppSettings} (h : s.IsSound) :
    ∃ a, s.broker.namedAccount? = some a := by
  unfold BrokerSettings.namedAccount?
  cases hname : s.broker.defaultAccount with
  | none =>
      obtain ⟨a, accounts, haccounts⟩ := List.exists_cons_of_ne_nil h.accounts
      exact ⟨a, by rw [haccounts]; rfl⟩
  | some name =>
      obtain ⟨a, ha, hnamed⟩ := h.named name hname
      exact Option.isSome_iff_exists.mp (List.find?_isSome.mpr ⟨a, ha, by simpa using hnamed⟩)

/-! ### Tokens for the named account -/

/-- With these credentials the token of an account is got for whoever asks for prices. -/
structure BrokerConfig.Fetches (config : BrokerConfig) (tokenSeal : TokenSeal)
    (hasher : AccountHasher) (a : Account) : Prop where
  /-- A call that finds nobody in line succeeds with an issuer that gives a token, whatever the store
  does. -/
  alone : ∀ {σ : Type} (t : TokenCache σ) (s : Session σ), t.config = config →
    t.tokenSeal = tokenSeal → t.hasher = hasher → t.DeskApart → t.Gives a →
    (∀ hash, hasher.hash a.number = .ok hash → (t.desk.get s.world).locks.queue hash = []) →
      ∃ token s', t.defaultToken.exec s = (.ok token, s')
  /-- Among any other calls, in any number of processes, a call has failed only if the issuer was asked
  for the token of the account and refused it. -/
  inCompany : ∀ {σ : Type} (g : TokenTeam σ) (texts : σ → String → Nat → Option String)
    (s : Session σ) (w : TokenTraffic σ) (i : Nat) (e : BrokerError), g.config = config →
    g.tokenSeal = tokenSeal → g.hasher = hasher → g.reference i = .forPrices →
    g.Leads texts (g.start s) w → w.stages i = .done (.error e) →
      ∃ reply, g.Given w i a reply ∧ TokenReply.refusal? reply = some e

/-- The tokens of the account that asks for prices are got, if its number is not blank. -/
theorem BrokerConfig.fetches {config : BrokerConfig} (tokenSeal : TokenSeal) (hasher : AccountHasher)
    {a : Account} (hdefault : config.defaultAccount? = some a)
    (hnumber : Text.isBlankText a.number = false) : config.Fetches tokenSeal hasher a := by
  constructor
  · rintro σ t s rfl rfl rfl hdesk hgives hfree
    obtain ⟨hash, hhash⟩ := t.hasher.exists_hash_iff.mpr hnumber
    have hcall : t.callForDefault 0 = .ok ⟨a, hash, 0⟩ := by
      rw [TokenCache.callForDefault, hdefault]
      dsimp only
      rw [TokenCache.callOf, hhash]
    unfold TokenCache.defaultToken
    rw [Attempt.exec_ofResult_bind_ok hcall]
    exact hdesk.exec_answer_ok (c := ⟨a, hash, 0⟩) hgives (hfree hash hhash)
  · rintro σ g texts s w i e rfl rfl rfl hreference hleads hdone
    obtain ⟨hash, hcall⟩ := (g.cache (g.process i)).exists_callOf hnumber
    have hcall : g.call? i = .ok ⟨a, hash, i⟩ := by
      unfold TokenTeam.call?
      rw [hreference]
      exact ((g.cache (g.process i)).callTo_eq_callOf (r := .forPrices) hdefault i).trans (hcall i)
    exact TokenTeam.refused_of_leads hcall hleads hdone

/-- **What the program starts with can fetch tokens for the account that it names.** The settings that
are accepted, with an environment that is known, give a configuration, a seal and a hasher, and name an
account whose number is hashed unless it is blank. If no account in front of it has its name as a
number, it is the account that asks for prices; and if its number is not blank, nothing but a refusal of
the issuer keeps it from a token. -/
theorem AppSettings.fetches_of_validate {s : AppSettings} (hvalid : s.validate = .ok ())
    (henvironment : (BrokerEnvironment.ofText? s.broker.environment).isSome) :
    ∃ config tokenSeal hasher a, BrokerConfig.ofSettings s.broker = .ok config ∧
      Collector.credentials s = .ok (config, tokenSeal, hasher) ∧
      s.broker.namedAccount? = some a ∧
      ((∃ hash, hasher.hash a.number = .ok hash) ↔ Text.isBlankText a.number = false) ∧
      (s.broker.NamesPlainly → config.defaultAccount? = some a ∧
        (Text.isBlankText a.number = false → config.Fetches tokenSeal hasher a)) := by
  have hsound := validate_eq_ok.mp hvalid
  obtain ⟨config, tokenSeal, hasher, hconfig, hcredentials⟩ := hsound.exists_credentials henvironment
  obtain ⟨a, hnamed⟩ := hsound.exists_namedAccount
  refine ⟨config, tokenSeal, hasher, a, hconfig, hcredentials, hnamed, hasher.exists_hash_iff, ?_⟩
  intro hplain
  have hdefault : config.defaultAccount? = some a :=
    (BrokerSettings.defaultAccount?_eq hconfig hplain).trans hnamed
  exact ⟨hdefault, BrokerConfig.fetches tokenSeal hasher hdefault⟩

/-! ### Three lists of accounts -/

namespace NamedAccount

def named : Account := ⟨"main", "12345678-01", "main-key", "main-secret"⟩

def isa : Account := ⟨"isa", "87654321-01", "isa-key", "isa-secret"⟩

/-- An account whose number is the name of another one. -/
def namesake : Account := ⟨"pension", "main", "pension-key", "pension-secret"⟩

/-- An account without a number. -/
def unnumbered : Account := ⟨"main", " ", "main-key", "main-secret"⟩

/-- Settings with some accounts, of which the one of the name is to ask for prices. -/
def settings (accounts : List Account) : AppSettings :=
  { AppSettings.start with
    broker := { BrokerSettings.start with accounts := accounts, defaultAccount := some "main" }
    secrets :=
      ⟨"MDEyMzQ1Njc4OWFiY2RlZjAxMjM0NTY3ODlhYmNkZWY=", "0123456789abcdef0123456789abcdef"⟩ }

variable (config : BrokerConfig) (tokenSeal : TokenSeal) (hasher : AccountHasher)

/-- A cache in memory with an issuer that gives the same token to everybody. -/
def cache : TokenCache TokenWorld :=
  { TokenWorld.cache config tokenSeal hasher with
    issuer := fun _ => Attempt.ofResult (.ok (some ⟨some "token", none, some "Bearer", some 86400⟩)) }

def session : Session TokenWorld :=
  ⟨⟨.empty, ⟨[], []⟩, .empty, []⟩, ⟨⟨1700000000, 0⟩, 0⟩, []⟩

theorem gives_cache (a : Account) : (cache config tokenSeal hasher).Gives a :=
  fun _ => ⟨_, "token", rfl, by decide⟩

theorem deskApart_cache : (cache config tokenSeal hasher).DeskApart where
  lawful _ _ := rfl
  reading _ _ := rfl

end NamedAccount

open NamedAccount in
/-- The account of the name is behind one of another name, and in front of one that has it as its
number. -/
theorem AppSettings.fetches_of_validate_numberBehind :
    (settings [isa, named, namesake]).validate = .ok () ∧
      (BrokerEnvironment.ofText? (settings [isa, named, namesake]).broker.environment).isSome ∧
      ∃ config tokenSeal hasher,
        Collector.credentials (settings [isa, named, namesake]) = .ok (config, tokenSeal, hasher) ∧
        config.defaultAccount? = some named ∧
        ∃ token s', (cache config tokenSeal hasher).defaultToken.exec session = (.ok token, s') := by
  have hvalid : (settings [isa, named, namesake]).validate = .ok () := by decide +kernel
  have henvironment :
      (BrokerEnvironment.ofText? (settings [isa, named, namesake]).broker.environment).isSome := by
    decide +kernel
  obtain ⟨config, tokenSeal, hasher, a, -, hcredentials, hnamed, -, hplain⟩ :=
    fetches_of_validate hvalid henvironment
  obtain rfl : a = named := Option.some.inj (hnamed.symm.trans (by decide +kernel))
  obtain ⟨hdefault, hfetches⟩ := hplain (by rintro _ ⟨⟩; decide)
  have halone := (hfetches (by decide)).alone (cache config tokenSeal hasher) session rfl rfl rfl
    (deskApart_cache config tokenSeal hasher) (gives_cache config tokenSeal hasher named)
    fun _ _ => rfl
  exact ⟨hvalid, henvironment, config, tokenSeal, hasher, hcredentials, hdefault, halone⟩

open NamedAccount in
/-- Accepted settings that do not do what they say: a number that is blank is not hashed, and every call
for a token fails, whatever the issuer gives; and an account that has the name as its number, in front
of the account of the name, is taken for it. -/
theorem AppSettings.not_fetches_accepted :
    ((settings [unnumbered]).validate = .ok () ∧
      (BrokerEnvironment.ofText? (settings [unnumbered]).broker.environment).isSome ∧
      (settings [unnumbered]).broker.namedAccount? = some unnumbered ∧
      ∃ config tokenSeal hasher,
        Collector.credentials (settings [unnumbered]) = .ok (config, tokenSeal, hasher) ∧
        hasher.hash unnumbered.number = .error (.emptyInput "account number") ∧
        (cache config tokenSeal hasher).Gives unnumbered ∧
        (cache config tokenSeal hasher).defaultToken.exec session =
          (.error (.invalidRequest "Empty input: account number"), session)) ∧
    (settings [namesake, named]).validate = .ok () ∧
      (BrokerEnvironment.ofText? (settings [namesake, named]).broker.environment).isSome ∧
      (settings [namesake, named]).broker.namedAccount? = some named ∧
      ∃ config tokenSeal hasher,
        Collector.credentials (settings [namesake, named]) = .ok (config, tokenSeal, hasher) ∧
        config.defaultAccount? = some namesake := by
  have henvironment : (BrokerEnvironment.ofText? BrokerSettings.start.environment).isSome := by
    decide +kernel
  constructor
  · have hvalid : (settings [unnumbered]).validate = .ok () := by decide +kernel
    obtain ⟨config, tokenSeal, hasher, hconfig, hcredentials⟩ :=
      (validate_eq_ok.mp hvalid).exists_credentials henvironment
    have hdefault : config.defaultAccount? = some unnumbered := by
      rw [BrokerSettings.defaultAccount?_eq hconfig (by rintro _ ⟨⟩; decide)]
      decide +kernel
    refine ⟨hvalid, henvironment, by decide +kernel, config, tokenSeal, hasher, hcredentials, rfl,
      gives_cache config tokenSeal hasher unnumbered, ?_⟩
    have hcall : (cache config tokenSeal hasher).callForDefault 0 =
        .error (.invalidRequest "Empty input: account number") := by
      have hdefault : (cache config tokenSeal hasher).config.defaultAccount? = some unnumbered :=
        hdefault
      rw [TokenCache.callForDefault, hdefault]
      rfl
    unfold TokenCache.defaultToken
    rw [hcall]
    rfl
  · have hvalid : (settings [namesake, named]).validate = .ok () := by decide +kernel
    obtain ⟨config, tokenSeal, hasher, hconfig, hcredentials⟩ :=
      (validate_eq_ok.mp hvalid).exists_credentials henvironment
    obtain ⟨haccounts, hname⟩ := BrokerSettings.accounts_of_ofSettings hconfig
    refine ⟨hvalid, henvironment, by decide +kernel, config, tokenSeal, hasher, hcredentials, ?_⟩
    unfold BrokerConfig.defaultAccount? BrokerConfig.findAccount?
    rw [haccounts, hname]
    decide +kernel

end DailyBars
