import DailyBars.Proofs.Broker.TokenMoves
import DailyBars.Rehearsal.Tokens

/-!
# What a rehearsed token cache is like

The shelf of a rehearsal keeps what is put on it until its time is over, or refuses everything, and
nobody but the calls touches it.
-/

namespace DailyBars

/-! ### The shelf -/

namespace RehearsalShelf

variable {shelf : RehearsalShelf} {key text : String} {now time storedAt ttl : Nat}

/-- A key gives what was put there last, until its time is over, and the other keys give what they gave
before. -/
theorem find?_put_eq (shelf : RehearsalShelf) (key other text : String) (storedAt ttl time : Nat) :
    (shelf.put ⟨key, text, storedAt, some ttl⟩).find? other time =
      if other = key then if time < storedAt + ttl then some text else none
      else shelf.find? other time := by
  by_cases hkey : other = key
  · subst hkey
    have hothers : (shelf.entries.filter (·.key != other)).find? (·.key == other) = none := by
      simp [List.find?_eq_none]
    rw [if_pos rfl]
    by_cases htime : time < storedAt + ttl <;>
      simp [find?, put, List.find?_append, hothers, Option.filter, htime]
  · have hne : (key == other) = false := by simpa using fun heq => hkey heq.symm
    have hothers : (shelf.entries.filter (·.key != key)).find? (·.key == other) =
        shelf.entries.find? (·.key == other) := by
      rw [List.find?_filter]
      refine congrArg (shelf.entries.find? ·) (funext fun e => ?_)
      by_cases he : e.key = other <;> simp [he, hkey]
    rw [if_neg hkey]
    unfold find? put
    dsimp only
    rw [List.find?_append, hothers, List.find?_cons, hne]
    simp

theorem find?_put (h : time < storedAt + ttl) :
    (shelf.put ⟨key, text, storedAt, some ttl⟩).find? key time = some text := by
  rw [find?_put_eq, if_pos rfl, if_pos h]

/-- What is given is given until its time is over. -/
theorem find?_fades (shelf : RehearsalShelf) (key : String) (h : now ≤ time) :
    shelf.find? key time = shelf.find? key now ∨ shelf.find? key time = none := by
  unfold find?
  cases shelf.entries.find? (·.key == key) with
  | none => exact .inl rfl
  | some e =>
      cases httl : e.ttl with
      | none => exact .inl (by simp [Option.filter, httl])
      | some ttl =>
          by_cases htime : time < e.storedAt + ttl
          · have hnow : now < e.storedAt + ttl := Nat.lt_of_le_of_lt h htime
            exact .inl (by simp [Option.filter, httl, htime, hnow])
          · exact .inr (by simp [Option.filter, httl, htime])

variable {σ : Type} (p : Part σ RehearsalShelf) (s : Session σ)

theorem exec_get_store (key : String) : ((store p).get key).exec s =
    (if (p.get s.world).refusesReading then .error refusal
      else .ok ((p.get s.world).find? key s.clock.uptime),
      { s with world := p.set (p.get s.world) s.world }) := rfl

theorem exec_set_store (key text : String) (ttl : Nat) : ((store p).set key text ttl).exec s =
    if (p.get s.world).refusesWriting then
      (.error refusal, { s with world := p.set (p.get s.world) s.world })
    else
      let shelf := (p.get s.world).put ⟨key, text, s.clock.uptime, some ttl⟩
      (.ok (), { s with world := p.set shelf s.world }) := by
  unfold store
  dsimp only
  rw [Attempt.exec_mk, Act.exec_bind, Act.exec_uptime, Act.exec_onPart]
  split <;> rfl

end RehearsalShelf

/-! ### The cache -/

namespace TokenWorld

/-- The shelf as a store that answers every operation, or refuses every operation. -/
def shelfView (answers : Bool) : StoreView TokenWorld where
  texts w key time := w.shelf.find? key time
  answers
  steady w := w.shelf.refusesReading = !answers ∧ w.shelf.refusesWriting = !answers

variable (config : BrokerConfig) (tokenSeal : TokenSeal) (hasher : AccountHasher) (answers : Bool)

theorem separate_cache : (cache config tokenSeal hasher).Separate (shelfView answers) where
  desk_lawful _ _ := rfl
  texts_desk _ _ := rfl
  steady_desk _ _ h := h
  issuer _ _ := ⟨⟨rfl, .refl _, id⟩, rfl⟩
  nonce _ := ⟨⟨rfl, .refl _, id⟩, rfl⟩

theorem storeAnswers_cache : (cache config tokenSeal hasher).StoreAnswers (shelfView true) where
  get key s hsteady := by
    refine ⟨s.clock.uptime, s, ?_, .refl s, Nat.le_refl _, Nat.le_refl _⟩
    have hreading : (shelfPart.get s.world).refusesReading = false := hsteady.1
    refine (RehearsalShelf.exec_get_store shelfPart s key).trans ?_
    rw [hreading]
    rfl
  set key text ttl s hsteady := by
    let shelf := s.world.shelf.put ⟨key, text, s.clock.uptime, some ttl⟩
    refine ⟨{ s with world := shelfPart.set shelf s.world }, ?_, ⟨rfl, .refl _, fun _ => hsteady⟩,
      fun time _ hto => RehearsalShelf.find?_put hto⟩
    have hwriting : (shelfPart.get s.world).refusesWriting = false := hsteady.2
    refine (RehearsalShelf.exec_set_store shelfPart s key text ttl).trans ?_
    rw [hwriting]
    rfl
  fades w key now time h := RehearsalShelf.find?_fades w.shelf key h

theorem storeFails_cache : (cache config tokenSeal hasher).StoreFails (shelfView false) where
  get key s hsteady := by
    refine ⟨RehearsalShelf.refusal, s, ?_, .refl s⟩
    have hreading : (shelfPart.get s.world).refusesReading = true := hsteady.1
    refine (RehearsalShelf.exec_get_store shelfPart s key).trans ?_
    rw [hreading]
    rfl
  set key text ttl s hsteady := by
    refine ⟨RehearsalShelf.refusal, s, ?_, .refl s⟩
    have hwriting : (shelfPart.get s.world).refusesWriting = true := hsteady.2
    refine (RehearsalShelf.exec_set_store shelfPart s key text ttl).trans ?_
    rw [hwriting]
    rfl

theorem storeLaw_cache : (cache config tokenSeal hasher).StoreLaw (shelfView answers) where
  answers h := by
    cases h
    exact storeAnswers_cache config tokenSeal hasher
  fails h := by
    cases h
    exact storeFails_cache config tokenSeal hasher

end TokenWorld

end DailyBars
