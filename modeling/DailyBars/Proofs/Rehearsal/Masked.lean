import DailyBars.Proofs.Broker.Credentials
import DailyBars.Proofs.Rehearsal.Tokens
import DailyBars.Rehearsal.Client

/-!
# Rehearsals that differ in credentials only

The shelf, the desk and the pacer of a rehearsal do the same for two configurations, as long as what is
on the shelf and on the desk for the accounts at the same place is alike; and a server that does not
look at credentials answers the same.
-/

namespace DailyBars

/-! ### The shelf -/

namespace RehearsalShelf

/-- Two shelves that are the same but for the tokens on them, where hashes in a relation stand for one
account. -/
structure Alike (P : String → String → Prop) (tokenSeal : TokenSeal) (a b : RehearsalShelf) :
    Prop where
  refusesReading : a.refusesReading = b.refusesReading
  refusesWriting : a.refusesWriting = b.refusesWriting
  texts : ∀ h k, P h k → ∀ time, Option.Rel (BoxesAlike tokenSeal)
    (a.find? ("kis:token:" ++ h) time) (b.find? ("kis:token:" ++ k) time)

/-- Boxes that are alike, put on the shelves for the same account. -/
theorem Alike.put {P : String → String → Prop} {tokenSeal : TokenSeal} {a b : RehearsalShelf}
    (h : a.Alike P tokenSeal b)
    (hsame : ∀ {h k h' k'}, P h k → P h' k' → (h = h' ↔ k = k')) {hash hash' : String}
    (hpair : P hash hash') {box box' : String} (hbox : BoxesAlike tokenSeal box box')
    (now ttl : Nat) :
    (a.put ⟨"kis:token:" ++ hash, box, now, some ttl⟩).Alike P tokenSeal
      (b.put ⟨"kis:token:" ++ hash', box', now, some ttl⟩) := by
  refine ⟨h.refusesReading, h.refusesWriting, fun other other' hother time => ?_⟩
  have hkeys {s t : String} : "kis:token:" ++ s = "kis:token:" ++ t ↔ s = t := by
    simp
  rw [find?_put_eq, find?_put_eq]
  by_cases heq : other = hash
  · rw [if_pos (hkeys.mpr heq), if_pos (hkeys.mpr ((hsame hother hpair).mp heq))]
    split
    · exact .some hbox
    · exact .none
  · rw [if_neg (heq ∘ hkeys.mp), if_neg (heq ∘ (hsame hother hpair).mpr ∘ hkeys.mp)]
    exact h.texts other other' hother time

end RehearsalShelf

/-! ### The client -/

namespace ClientWorld

/-- A server that answers every request for a token with one text, and every request for prices with
another. -/
def steadyServer (reply page : String) : HttpExchange ClientWorld := fun r =>
  return ⟨200, match r.method with
    | .post => reply
    | .get => page⟩

/-- The shelf. -/
def shelfPart : Part ClientWorld RehearsalShelf := ⟨(·.shelf), fun s w => { w with shelf := s }⟩

/-- The rehearsed client, with a server of its own. -/
def access (config : BrokerConfig) (tokenSeal : TokenSeal) (hasher : AccountHasher)
    (http : HttpExchange ClientWorld) : BrokerAccess ClientWorld where
  config
  http
  store := (tokens config tokenSeal hasher).store
  tokenSeal
  hasher
  desk := (tokens config tokenSeal hasher).desk
  pacing := (client config (tokens config tokenSeal hasher).defaultToken).pacing
  freshNonce := (tokens config tokenSeal hasher).freshNonce

/-- Two worlds that are the same but for the tokens in them. -/
structure Alike (x y : BrokerAccess ClientWorld) (w v : ClientWorld) : Prop where
  shelf : w.shelf.Alike (x.Paired y) x.tokenSeal v.shelf
  desk : w.desk.Alike (x.Paired y) v.desk
  pacing : w.pacing = v.pacing

variable {config config' : BrokerConfig} {tokenSeal : TokenSeal} {hasher : AccountHasher}
  {reply reply' page : String}

/-- **What is outside a rehearsed client does the same** for two configurations that differ in
credentials only, if the replies with tokens do. -/
theorem sameOutside_access
    (same : (access config tokenSeal hasher (steadyServer reply page)).SameConfig
      (access config' tokenSeal hasher (steadyServer reply' page)))
    (hreply : AnswersAlike ⟨200, reply⟩ ⟨200, reply'⟩) :
    BrokerAccess.SameOutside
      (Alike (access config tokenSeal hasher (steadyServer reply page))
        (access config' tokenSeal hasher (steadyServer reply' page)))
      (access config tokenSeal hasher (steadyServer reply page))
      (access config' tokenSeal hasher (steadyServer reply' page)) where
  issue _ _ _ _ _ := .pure hreply
  ask _ _ _ _ := .pure rfl
  get h k hpair s t hst := by
    obtain ⟨hworld, hclock, hlog⟩ := hst
    refine ⟨?_, ⟨hworld.shelf, hworld.desk, hworld.pacing⟩, hclock, hlog⟩
    have hrefuses := hworld.shelf.refusesReading
    have htexts := hworld.shelf.texts h k hpair s.clock.uptime
    change SameEnd _ (if s.world.shelf.refusesReading then _ else .ok _)
      (if t.world.shelf.refusesReading then _ else .ok _)
    rw [← hrefuses, ← hclock]
    split
    · exact .error _
    · exact .ok htexts
  set h k box box' ttl hpair hbox s t hst := by
    obtain ⟨hworld, hclock, hlog⟩ := hst
    have hrefuses : (shelfPart.get s.world).refusesWriting =
        (shelfPart.get t.world).refusesWriting := hworld.shelf.refusesWriting
    have hput := hworld.shelf.put same.paired_iff hpair hbox s.clock.uptime ttl
    change SameEnd _ (Attempt.exec ((RehearsalShelf.store shelfPart).set _ box ttl) s).1
        (Attempt.exec ((RehearsalShelf.store shelfPart).set _ box' ttl) t).1 ∧
      Session.Alike _ (Attempt.exec ((RehearsalShelf.store shelfPart).set _ box ttl) s).2
        (Attempt.exec ((RehearsalShelf.store shelfPart).set _ box' ttl) t).2
    rw [RehearsalShelf.exec_set_store, RehearsalShelf.exec_set_store, ← hclock, ← hrefuses]
    split
    · exact ⟨.error _, ⟨hworld.shelf, hworld.desk, hworld.pacing⟩, rfl, hlog⟩
    · exact ⟨.ok trivial, ⟨hput, hworld.desk, hworld.pacing⟩, rfl, hlog⟩
  freshNonce := .pure trivial
  desk _ _ hw := hw.desk
  setDesk _ _ _ _ hw hdesks := ⟨hw.shelf, hdesks, hw.pacing⟩
  pacing _ _ hw := hw.pacing
  setPacing _ _ _ hw := ⟨hw.shelf, hw.desk, rfl⟩

end ClientWorld

end DailyBars
