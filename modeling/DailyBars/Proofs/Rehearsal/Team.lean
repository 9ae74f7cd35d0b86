import DailyBars.Proofs.Broker.TokenTeam
import DailyBars.Proofs.Rehearsal.Tokens

/-!
# What a rehearsed team is like

Processes that share the shelf and the issuer of a rehearsal, each with a desk of its own. A text that
the shelf gives after another was put on it was there before, or it is that other one, until its time
is over.
-/

namespace DailyBars

/-- A text on the shelf was put there last, or it was there before. -/
theorem RehearsalShelf.find?_put_cases {shelf : RehearsalShelf} {key other text text' : String}
    {time storedAt ttl : Nat}
    (h : (shelf.put ⟨key, text, storedAt, some ttl⟩).find? other time = some text') :
    shelf.find? other time = some text' ∨
      (other = key ∧ text' = text ∧ time < storedAt + ttl) := by
  rw [find?_put_eq] at h
  split at h
  next hkey =>
    by_cases htime : time < storedAt + ttl
    · rw [if_pos htime] at h
      exact .inr ⟨hkey, (Option.some.inj h).symm, htime⟩
    · rw [if_neg htime] at h
      cases h
  next => exact .inl h

/-- A shelf and an issuer that processes share, and the desk of each. -/
structure TeamWorld where
  shelf : RehearsalShelf
  issuer : RehearsalIssuer
  desks : Nat → TokenDesk

namespace TeamWorld

def shelfPart : Part TeamWorld RehearsalShelf := ⟨(·.shelf), fun s w => { w with shelf := s }⟩

def issuerPart : Part TeamWorld RehearsalIssuer := ⟨(·.issuer), fun i w => { w with issuer := i }⟩

def deskPart (p : Nat) : Part TeamWorld TokenDesk :=
  ⟨(·.desks p), fun d w => { w with desks := Function.update w.desks p d }⟩

/-- The text that the shelf gives for a key at an uptime. -/
def texts (w : TeamWorld) (key : String) (time : Nat) : Option String := w.shelf.find? key time

/-- Processes over the world. -/
def team (config : BrokerConfig) (tokenSeal : TokenSeal) (hasher : AccountHasher)
    (process : Nat → Nat) (reference : Nat → TokenReference) : TokenTeam TeamWorld where
  config
  tokenSeal
  hasher
  issuer _ account := ExceptT.mk (Act.onPart issuerPart (·.issue account))
  store _ := RehearsalShelf.store shelfPart
  desk := deskPart
  freshNonce _ := return .ofBytes []
  process
  reference

variable (config : BrokerConfig) (tokenSeal : TokenSeal) (hasher : AccountHasher)
  (process : Nat → Nat) (reference : Nat → TokenReference)

theorem text_of_set {key text : String} {ttl : Nat} {s : Session TeamWorld} {other : String}
    {time : Nat} {text' : String}
    (h : texts (((RehearsalShelf.store shelfPart).set key text ttl).exec s).2.world other time =
      some text') :
    texts s.world other time = some text' ∨
      other = key ∧ text' = text ∧ time < s.clock.uptime + ttl := by
  rw [RehearsalShelf.exec_set_store] at h
  split at h
  · exact .inl h
  · exact RehearsalShelf.find?_put_cases h

/-- Writing leaves the desks and the clock alone. -/
theorem set_leaves (key text : String) (ttl : Nat) (s : Session TeamWorld) :
    (((RehearsalShelf.store shelfPart).set key text ttl).exec s).2.world.desks = s.world.desks ∧
      (((RehearsalShelf.store shelfPart).set key text ttl).exec s).2.clock = s.clock := by
  rw [RehearsalShelf.exec_set_store]
  split <;> exact ⟨rfl, rfl⟩

theorem lawful_team : (team config tokenSeal hasher process reference).Lawful texts where
  desk_lawful p d w := Function.update_self ..
  desk_apart p q d w hq := Function.update_of_ne hq ..
  texts_desk p d w := rfl
  issuer p a s := ⟨fun _ => rfl, rfl, .refl _⟩
  nonce p s := ⟨fun _ => rfl, rfl, .refl _⟩
  get p key s := ⟨fun _ => rfl, rfl, .refl _⟩
  gives p key s text s' h := by
    change ((RehearsalShelf.store shelfPart).get key).exec s = _ at h
    rw [RehearsalShelf.exec_get_store] at h
    obtain ⟨hresult, rfl⟩ := Prod.mk.inj h
    split at hresult
    · cases hresult
    · cases hresult
      exact ⟨s.clock.uptime, Nat.le_refl _, Nat.le_refl _, rfl⟩
  set_desks p key text ttl s q := congrFun (set_leaves key text ttl s).1 q
  set_later p key text ttl s := by
    change s.clock.Later (((RehearsalShelf.store shelfPart).set key text ttl).exec s).2.clock
    rw [(set_leaves key text ttl s).2]
    exact .refl _
  set_texts p key text ttl s other time text' h :=
    (text_of_set h).imp_right fun hnew => ⟨hnew.1, hnew.2.1⟩

theorem honoursTime_team :
    (team config tokenSeal hasher process reference).HonoursTime texts := by
  intro p key text ttl s other time text' h
  have hclock : _ = s.clock := (set_leaves key text ttl s).2
  obtain hbefore | ⟨hkey, htext, htime⟩ := text_of_set h
  · exact .inl hbefore
  · refine .inr ⟨hkey, htext, ?_⟩
    change time < (((RehearsalShelf.store shelfPart).set key text ttl).exec s).2.clock.uptime + ttl
    rw [hclock]
    exact htime

/-- Time may pass between the calls. -/
theorem untouched_advance (s : Session TeamWorld) (nanos : Nat) :
    (team config tokenSeal hasher process reference).Untouched texts s
      { s with clock := s.clock.advance nanos } :=
  ⟨fun _ => rfl, rfl, s.clock.later_advance nanos⟩

/-- Nothing in a rehearsal takes any time. -/
theorem prompt_cache (p : Nat) : ((team config tokenSeal hasher process reference).cache p).Prompt where
  issuer _ _ := rfl
  get _ _ := rfl
  set key text ttl s := (set_leaves key text ttl s).2
  nonce _ := rfl

end TeamWorld

end DailyBars
