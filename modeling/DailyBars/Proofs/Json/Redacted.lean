import DailyBars.Json.Decode
import DailyBars.Proofs.SideBySide
import DailyBars.Text.Characters
import Mathlib.Data.List.Forall2

/-!
# JSON values that differ in one field

Two objects with the same fields in the same order, in which the fields of one name may hold different
texts. A reader of records takes both or refuses both, with the same problem: what is wrong with a
record is told by the names of its fields and by the types and the values of the others. So a reader
that does not know the field reads the same from both.
-/

namespace DailyBars

open Json

variable {ρ α : Type} {name : String} {T : String → String → Prop} {R : ρ → ρ → Prop}

/-! ### Values -/

namespace Json

/-- Two fields are the same, or they have the name and hold texts in a relation. -/
def FieldAlike (name : String) (T : String → String → Prop) (e f : Option String × Json) : Prop :=
  e = f ∨ ∃ s t, T s t ∧ e = (some name, .str s) ∧ f = (some name, .str t)

namespace FieldAlike

variable {e f : Option String × Json}

theorem fst_eq (h : FieldAlike name T e f) : e.1 = f.1 := by
  obtain rfl | ⟨s, t, -, rfl, rfl⟩ := h
  · rfl
  · rfl

theorem snd_eq {k : String} {v w : Json} (h : FieldAlike name T (some k, v) (some k, w))
    (hne : k ≠ name) : v = w := by
  obtain h | ⟨s, t, -, he, -⟩ := h
  · exact congrArg Prod.snd h
  · exact absurd (Option.some.inj (congrArg Prod.fst he)) hne

theorem isReadable_eq (h : FieldAlike name T e f) (depth : Nat) :
    (e.1.isSome && e.2.isReadable depth) = (f.1.isSome && f.2.isReadable depth) := by
  obtain rfl | ⟨s, t, -, rfl, rfl⟩ := h
  · rfl
  · cases depth <;> rfl

end FieldAlike

theorem fieldsReadable_eq {es fs : List (Option String × Json)}
    (h : List.Forall₂ (FieldAlike name T) es fs) (depth : Nat) :
    fieldsReadable depth es = fieldsReadable depth fs := by
  induction h with
  | nil => rfl
  | @cons e f es fs hfirst _ ih =>
      rw [fieldsReadable, fieldsReadable, ih, hfirst.isReadable_eq]

theorem isReadable_object_eq {es fs : List (Option String × Json)}
    (h : List.Forall₂ (FieldAlike name T) es fs) (depth : Nat) :
    (Json.object es).isReadable depth = (Json.object fs).isReadable depth := by
  cases depth with
  | zero => rfl
  | succ depth => exact fieldsReadable_eq h depth

theorem isReadable_list_eq (s t : String) (vs : List Json) (depth : Nat) :
    (Json.list (.str s :: vs)).isReadable depth = (Json.list (.str t :: vs)).isReadable depth := by
  cases depth with
  | zero => rfl
  | succ depth => cases depth <;> rfl

end Json

/-! ### Records -/

namespace Decoder

/-- Read from values that are alike, the field makes of records in a relation records in the relation,
or has the same problem with both. -/
def Field.Keeps (name : String) (T : String → String → Prop) (R : ρ → ρ → Prop) (f : Field ρ) :
    Prop :=
  ∀ v w, FieldAlike name T (some f.name, v) (some f.name, w) → ∀ r q, R r q →
    SameEnd R (f.read .text v r) (f.read .text w q)

/-- A field with a setter that keeps the relation does so if its name is another one. -/
theorem keeps_field {k : String} {absence : Absence} {d : Decoder α} {set : ρ → α → ρ}
    (hne : k ≠ name) (hset : ∀ a r q, R r q → R (set r a) (set q a)) :
    (field k absence d set).Keeps name T R := by
  intro v w hvw r q hrq
  obtain rfl := hvw.snd_eq hne
  refine SameEnd.map (SameEnd.refl (R := fun a b => a = b) (fun _ => rfl) (d .text v)) ?_
  rintro a _ rfl
  exact hset a r q hrq

variable {fields : List (Field ρ)} {es fs : List (Option String × Json)}

theorem readFields_alike (hfields : ∀ f ∈ fields, f.Keeps name T R)
    (h : List.Forall₂ (FieldAlike name T) es fs) {r q : ρ} (hrq : R r q) (seen : List String) :
    SameEnd (fun a b => R a.1 b.1 ∧ a.2 = b.2) (readFields fields .text r seen es)
      (readFields fields .text q seen fs) := by
  -- Both objects are read field by field; the records so far are alike, and the same names were seen.
  induction h generalizing r q seen with
  | nil => exact .ok ⟨hrq, rfl⟩
  | @cons e f es fs hfirst _ ih =>
      obtain ⟨k, v⟩ := e
      obtain ⟨k', w⟩ := f
      obtain rfl : k = k' := hfirst.fst_eq
      cases k with
      | none => exact .error _
      | some k =>
          rw [readFields, readFields]
          cases hfind : fields.find? fun f => f.name == k with
          | none => exact ih hrq seen
          | some g =>
              dsimp only
              split
              -- A name that comes twice is a problem whatever the texts are.
              · exact .error _
              · obtain rfl : g.name = k := by simpa using List.find?_some hfind
                have hread := hfields g (List.mem_of_find?_eq_some hfind) v w hfirst r q hrq
                generalize g.read .text v r = x, g.read .text w q = y at hread ⊢
                cases hread with
                | ok hab => exact ih hab _
                | error e => exact .error e

theorem record_alike (title : String) (hfields : ∀ f ∈ fields, f.Keeps name T R)
    (h : List.Forall₂ (FieldAlike name T) es fs) {start : ρ} (hstart : R start start) :
    SameEnd R (record title fields start .text (.object es))
      (record title fields start .text (.object fs)) := by
  unfold record
  have hread := readFields_alike hfields h hstart []
  dsimp only
  generalize readFields fields .text start [] es = x,
    readFields fields .text start [] fs = y at hread ⊢
  cases hread with
  | error e => exact .error e
  | @ok a b hab =>
      obtain ⟨r, seen⟩ := a
      obtain ⟨q, seen'⟩ := b
      obtain ⟨hrq, rfl⟩ := hab
      dsimp only
      cases firstMissing fields seen with
      | none => exact .ok hrq
      | some k => exact .error _

/-- The items of a list make of records in a relation records in the relation. -/
theorem readItems_alike (hfields : ∀ f ∈ fields, f.Keeps name T R) (expected : String)
    (total count : Nat) {r q : ρ} (hrq : R r q) (items : List Json) :
    SameEnd R (readItems expected .text total count r fields items)
      (readItems expected .text total count q fields items) := by
  induction fields generalizing r q count items with
  | nil =>
      cases items with
      | nil => exact .ok hrq
      | cons v vs => exact .error _
  | cons f rest ih =>
      have hrest : ∀ f ∈ rest, f.Keeps name T R := fun g hg => hfields g (List.mem_cons_of_mem _ hg)
      cases items with
      | nil =>
          rw [readItems, readItems]
          split
          · exact ih hrest _ hrq []
          · exact .error _
      | cons v vs =>
          rw [readItems, readItems]
          have hread := hfields f List.mem_cons_self v v (.inl rfl) r q hrq
          generalize f.read .text v r = x, f.read .text v q = y at hread ⊢
          cases hread with
          | ok hab => exact ih hrest _ hab vs
          | error e => exact .error e

/-- A record may be written as the list of its fields, the one with the name first. -/
theorem record_list_alike (title : String) {f : Field ρ} (hname : f.name = name)
    (hfields : ∀ g ∈ f :: fields, g.Keeps name T R) {s t : String} (hst : T s t) {start : ρ}
    (hstart : R start start) (items : List Json) :
    SameEnd R (record title (f :: fields) start .text (.list (.str s :: items)))
      (record title (f :: fields) start .text (.list (.str t :: items))) := by
  have hrest : ∀ g ∈ fields, g.Keeps name T R := fun g hg => hfields g (List.mem_cons_of_mem _ hg)
  have halike : FieldAlike name T (some f.name, .str s) (some f.name, .str t) :=
    .inr ⟨s, t, hst, by rw [hname], by rw [hname]⟩
  have hread := hfields f List.mem_cons_self _ _ halike start start hstart
  unfold record
  dsimp only
  rw [readItems, readItems, List.length_cons, List.length_cons]
  generalize f.read .text (.str s) start = x, f.read .text (.str t) start = y at hread ⊢
  cases hread with
  | ok hab => exact readItems_alike hrest _ _ _ hab items
  | error e => exact .error e

/-! ### Texts -/

/-- What is read of two texts from values that are alike. -/
theorem ofText_alike {d : Decoder ρ} {s t : String} {v w : Json} (hs : Json.ofText? s = some v)
    (ht : Json.ofText? t = some w) (hread : SameEnd R (d .text v) (d .text w))
    (hreadable : v.isReadable Json.maxDepth = w.isReadable Json.maxDepth) :
    SameEnd R (ofText d s) (ofText d t) := by
  rw [ofText, ofText, hs, ht]
  dsimp only
  generalize d .text v = x, d .text w = y at hread ⊢
  cases hread with
  | ok hab => exact .ok hab
  | error e =>
      rw [hreadable]
      exact .error _

end Decoder

end DailyBars
