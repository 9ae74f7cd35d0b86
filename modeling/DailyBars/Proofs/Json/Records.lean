import DailyBars.Json.Decode

/-!
# Reading the fields of a record

What a record is read from an object does not depend on the order of the fields. An object is read if
the known fields stand in it once each and each of them can be read (`Decoder.record_isOk`), and then
each part of the record is as its own field says (`Decoder.record_field`). An object in which one known
field cannot be read is refused (`Decoder.exists_read_of_record`).
-/

namespace DailyBars

/-! ### Values of a name -/

namespace Json

variable {name k : String} {v : Json} {entries : List (Option String × Json)}

/-- What an object holds under a name, in order. -/
def valuesOf (name : String) (entries : List (Option String × Json)) : List Json :=
  (entries.filter fun f => f.1 = some name).map (·.2)

@[simp] theorem valuesOf_nil (name : String) : valuesOf name [] = [] := rfl

@[simp] theorem valuesOf_cons_self :
    valuesOf name ((some name, v) :: entries) = v :: valuesOf name entries := by
  simp [valuesOf]

theorem valuesOf_cons_of_ne (h : k ≠ name) :
    valuesOf name ((some k, v) :: entries) = valuesOf name entries := by
  simp [valuesOf, h]

theorem valuesOf_append (name : String) (es fs : List (Option String × Json)) :
    valuesOf name (es ++ fs) = valuesOf name es ++ valuesOf name fs := by
  simp [valuesOf]

theorem mem_valuesOf : v ∈ valuesOf name entries ↔ (some name, v) ∈ entries := by
  simp [valuesOf]

theorem mem_valuesOf_cons {w : Json} (h : w ∈ valuesOf name entries) :
    w ∈ valuesOf name ((some k, v) :: entries) :=
  mem_valuesOf.mpr (List.mem_cons_of_mem _ (mem_valuesOf.mp h))

end Json

namespace Decoder

open Json (valuesOf)

variable {ρ : Type} {fields : List (Field ρ)} {f : Field ρ} {form : JsonForm} {r r' start : ρ}
  {seen seen' : List String} {entries : List (Option String × Json)} {title : String}

/-- The field that is found under its own name is known by it. -/
theorem mem_of_find? {k : String} (h : fields.find? (fun f => f.name == k) = some f) :
    f ∈ fields ∧ f.name = k :=
  ⟨List.mem_of_find?_eq_some h, by simpa using List.find?_some h⟩

/-- Known fields that stand there once each, and not among those already seen. -/
def OnceEach (fields : List (Field ρ)) (seen : List String)
    (entries : List (Option String × Json)) : Prop :=
  ∀ f ∈ fields, (valuesOf f.name entries).length ≤ 1 ∧
    (f.name ∈ seen → valuesOf f.name entries = [])

/-- Fields are read if they stand there once each and each of them can be read. -/
theorem readFields_isOk (hnames : ∀ e ∈ entries, e.1.isSome) (honce : OnceEach fields seen entries)
    (hread : ∀ f ∈ fields, ∀ v ∈ valuesOf f.name entries, ∀ r, ∃ r', f.read form v r = .ok r') :
    ∃ r' seen', readFields fields form r seen entries = .ok (r', seen') ∧ seen ⊆ seen' ∧
      ∀ f ∈ fields, valuesOf f.name entries ≠ [] → f.name ∈ seen' := by
  induction entries generalizing r seen with
  | nil => exact ⟨r, seen, rfl, List.Subset.refl _, fun f _ hne => absurd rfl hne⟩
  | cons e entries ih =>
      obtain ⟨_ | k, v⟩ := e
      · exact absurd (hnames _ List.mem_cons_self) (by simp)
      have hnames' : ∀ e ∈ entries, e.1.isSome := fun e he => hnames e (List.mem_cons_of_mem _ he)
      have hread' : ∀ f ∈ fields, ∀ v ∈ valuesOf f.name entries, ∀ r,
          ∃ r', f.read form v r = .ok r' :=
        fun f hf w hw => hread f hf w (Json.mem_valuesOf_cons hw)
      cases hfind : fields.find? (fun f => f.name == k) with
      | none =>
          have hother : ∀ f ∈ fields, k ≠ f.name := by
            rintro f hf rfl
            exact absurd (List.find?_eq_none.mp hfind f hf) (by simp)
          have honce' : OnceEach fields seen entries := by
            intro f hf
            have h := honce f hf
            rwa [Json.valuesOf_cons_of_ne (hother f hf)] at h
          obtain ⟨r', seen', hok, hsub, hin⟩ := @ih r seen hnames' honce' hread'
          refine ⟨r', seen', ?_, hsub, fun f hf hne => ?_⟩
          · rw [readFields, hfind]
            exact hok
          · rw [Json.valuesOf_cons_of_ne (hother f hf)] at hne
            exact hin f hf hne
      | some g =>
          obtain ⟨hg, rfl⟩ := mem_of_find? hfind
          obtain ⟨hlength, hunseen⟩ := honce g hg
          rw [Json.valuesOf_cons_self] at hlength hunseen
          have hlast : valuesOf g.name entries = [] :=
            List.eq_nil_of_length_eq_zero (Nat.le_zero.mp (Nat.le_of_succ_le_succ hlength))
          have hnew : g.name ∉ seen := fun hmem => absurd (hunseen hmem) (List.cons_ne_nil _ _)
          obtain ⟨r₁, hr₁⟩ := hread g hg v (Json.valuesOf_cons_self ▸ List.mem_cons_self) r
          have honce' : OnceEach fields (g.name :: seen) entries := by
            intro f hf
            by_cases hname : g.name = f.name
            · rw [← hname, hlast]
              exact ⟨Nat.zero_le _, fun _ => rfl⟩
            · obtain ⟨hle, hseen⟩ := honce f hf
              rw [Json.valuesOf_cons_of_ne hname] at hle hseen
              exact ⟨hle, fun hmem => hseen ((List.mem_cons.mp hmem).resolve_left (Ne.symm hname))⟩
          obtain ⟨r', seen', hok, hsub, hin⟩ := @ih r₁ _ hnames' honce' hread'
          refine ⟨r', seen', ?_, fun s hs => hsub (List.mem_cons_of_mem _ hs), fun f hf hne => ?_⟩
          · rw [readFields, hfind]
            simp [hnew, hr₁, hok]
          · by_cases hname : g.name = f.name
            · exact hname ▸ hsub List.mem_cons_self
            · rw [Json.valuesOf_cons_of_ne hname] at hne
              exact hin f hf hne

/-- A record is read from an object whose names can be read, in which the known fields stand once each
and can be read, and in which none is missing that must be there. -/
theorem record_isOk (hnames : ∀ e ∈ entries, e.1.isSome)
    (honce : ∀ f ∈ fields, (valuesOf f.name entries).length ≤ 1)
    (hread : ∀ f ∈ fields, ∀ v ∈ valuesOf f.name entries, ∀ r, ∃ r', f.read form v r = .ok r')
    (hneeded : ∀ f ∈ fields, f.absence = .forbidden → valuesOf f.name entries ≠ []) :
    ∃ r, record title fields start form (.object entries) = .ok r := by
  have hall : OnceEach fields [] entries :=
    fun f hf => ⟨honce f hf, fun hmem => absurd hmem List.not_mem_nil⟩
  obtain ⟨r, seen, hok, -, hin⟩ := @readFields_isOk _ _ _ start _ _ hnames hall hread
  have hmissing : firstMissing fields seen = none := by
    unfold firstMissing
    rw [Option.map_eq_none_iff, List.find?_eq_none]
    intro f hf
    by_cases hforbidden : f.absence = .forbidden
    · simp [hin f hf (hneeded f hf hforbidden)]
    · simp [hforbidden]
  exact ⟨r, by simp only [record, hok, hmissing]⟩

/-- The fields of a record that was read. -/
theorem readFields_of_record (h : record title fields start form (.object entries) = .ok r) :
    ∃ seen, readFields fields form start [] entries = .ok (r, seen) := by
  simp only [record] at h
  split at h
  · cases h
  · rename_i s seen hok
    split at h
    · cases h
    · cases h
      exact ⟨seen, hok⟩

/-- Reading fields, one at a time: the first name can be read; its field, if it is known, was not seen
before and is read. -/
theorem readFields_cons {e : Option String × Json}
    (h : readFields fields form r seen (e :: entries) = .ok (r', seen')) : ∃ k, e.1 = some k ∧
      ((fields.find? (fun f => f.name == k) = none ∧
          readFields fields form r seen entries = .ok (r', seen')) ∨
        ∃ f r₁, fields.find? (fun f => f.name == k) = some f ∧ f.read form e.2 r = .ok r₁ ∧
          readFields fields form r₁ (k :: seen) entries = .ok (r', seen')) := by
  obtain ⟨_ | k, v⟩ := e
  · cases h
  refine ⟨k, rfl, ?_⟩
  rw [readFields] at h
  split at h
  · rename_i hfind
    exact .inl ⟨hfind, h⟩
  · rename_i f hfind
    split at h
    · cases h
    · split at h
      · cases h
      · rename_i r₁ hr₁
        exact .inr ⟨f, r₁, hfind, hr₁, h⟩

/-- Each known field among those that were read could be read. -/
theorem exists_read_of_readFields
    (h : readFields fields form r seen entries = .ok (r', seen'))
    (hf : fields.find? (fun g => g.name == f.name) = some f) {v : Json}
    (hv : v ∈ valuesOf f.name entries) : ∃ r₀ r₁, f.read form v r₀ = .ok r₁ := by
  induction entries generalizing r seen with
  | nil => cases hv
  | cons e entries ih =>
      obtain ⟨k, he, hcase⟩ := readFields_cons h
      rcases List.mem_cons.mp (Json.mem_valuesOf.mp hv) with rfl | hmem
      · cases he
        obtain ⟨hnone, -⟩ | ⟨g, r₁, hsome, hr₁, -⟩ := hcase
        · rw [hf] at hnone
          cases hnone
        · rw [hf] at hsome
          cases hsome
          exact ⟨r, r₁, hr₁⟩
      · obtain ⟨-, hrest⟩ | ⟨g, r₁, -, -, hrest⟩ := hcase
        · exact ih hrest (Json.mem_valuesOf.mpr hmem)
        · exact ih hrest (Json.mem_valuesOf.mpr hmem)

theorem readFields_frame {P : ρ → Prop}
    (h : readFields fields form r seen entries = .ok (r', seen'))
    (hfields : ∀ g ∈ fields, ∀ v r r', g.read form v r = .ok r' → P r → P r') (hstart : P r) :
    P r' := by
  induction entries generalizing r seen with
  | nil =>
      cases h
      exact hstart
  | cons e entries ih =>
      obtain ⟨k, -, ⟨-, hrest⟩ | ⟨g, r₁, hsome, hr₁, hrest⟩⟩ := readFields_cons h
      · exact ih hrest hstart
      · obtain ⟨hg, -⟩ := mem_of_find? hsome
        exact ih hrest (hfields g hg _ _ _ hr₁ hstart)

/-- What reading a field makes true, and no other field touches, is true in the end; it may be true from
the start, if the field is not there. -/
theorem readFields_field {P : ρ → Prop}
    (h : readFields fields form r seen entries = .ok (r', seen'))
    (hf : fields.find? (fun g => g.name == f.name) = some f)
    (hothers : ∀ g ∈ fields, g.name ≠ f.name → ∀ v r r', g.read form v r = .ok r' → P r → P r')
    (hsets : ∀ v ∈ valuesOf f.name entries, ∀ r r', f.read form v r = .ok r' → P r')
    (hstart : P r ∨ valuesOf f.name entries ≠ []) : P r' := by
  induction entries generalizing r seen with
  | nil =>
      cases h
      exact hstart.resolve_right fun hne => hne rfl
  | cons e entries ih =>
      have hsets' : ∀ v ∈ valuesOf f.name entries, ∀ r r', f.read form v r = .ok r' → P r' := by
        intro v hv
        exact hsets v (Json.mem_valuesOf.mpr (List.mem_cons_of_mem _ (Json.mem_valuesOf.mp hv)))
      obtain ⟨k, v⟩ := e
      obtain ⟨k, rfl, ⟨hnone, hrest⟩ | ⟨g, r₁, hsome, hr₁, hrest⟩⟩ := readFields_cons h
      · have hne : k ≠ f.name := by
          rintro rfl
          rw [hf] at hnone
          cases hnone
        rw [Json.valuesOf_cons_of_ne hne] at hstart
        exact ih hrest hsets' hstart
      · obtain ⟨hg, rfl⟩ := mem_of_find? hsome
        by_cases hname : g.name = f.name
        · rw [hname, hf] at hsome
          cases hsome
          have hfirst : v ∈ valuesOf f.name ((some f.name, v) :: entries) :=
            Json.mem_valuesOf.mpr List.mem_cons_self
          exact ih hrest hsets' (.inl (hsets v hfirst r r₁ hr₁))
        · rw [Json.valuesOf_cons_of_ne hname] at hstart
          exact ih hrest hsets' (hstart.imp_left (hothers g hg hname v r r₁ hr₁))

/-- Each known field of a record that was read could be read. -/
theorem exists_read_of_record (h : record title fields start form (.object entries) = .ok r)
    (hf : fields.find? (fun g => g.name == f.name) = some f) {v : Json}
    (hv : v ∈ valuesOf f.name entries) : ∃ r₀ r₁, f.read form v r₀ = .ok r₁ := by
  obtain ⟨_, hok⟩ := readFields_of_record h
  exact exists_read_of_readFields hok hf hv

/-- **A part of a record is as its field says**, wherever the field stands, and as it was at the start if
the field is not there. -/
theorem record_field {P : ρ → Prop}
    (h : record title fields start form (.object entries) = .ok r)
    (hf : fields.find? (fun g => g.name == f.name) = some f)
    (hothers : ∀ g ∈ fields, g.name ≠ f.name → ∀ v r r', g.read form v r = .ok r' → P r → P r')
    (hsets : ∀ v ∈ valuesOf f.name entries, ∀ r r', f.read form v r = .ok r' → P r')
    (hstart : valuesOf f.name entries = [] → P start) : P r := by
  obtain ⟨_, hok⟩ := readFields_of_record h
  refine readFields_field hok hf hothers hsets ?_
  by_cases hnil : valuesOf f.name entries = []
  · exact .inl (hstart hnil)
  · exact .inr hnil

/-- What no field touches is as it was at the start. -/
theorem record_frame {P : ρ → Prop}
    (h : record title fields start form (.object entries) = .ok r)
    (hfields : ∀ g ∈ fields, ∀ v r r', g.read form v r = .ok r' → P r → P r') (hstart : P start) :
    P r := by
  obtain ⟨_, hok⟩ := readFields_of_record h
  exact readFields_frame hok hfields hstart

end Decoder

end DailyBars
