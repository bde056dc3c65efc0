import PathAccess.Json.Basic
/-!
# Parts of a value

A part of a value is the value itself or a part of one of its items or entries.
-/

namespace PathAccess.Json

/-- The first value is the second or stands inside it. -/
inductive Part : Json → Json → Prop where
  | refl (j : Json) : Part j j
  | item {j i : Json} {items : List Json} : i ∈ items → Part j i → Part j (.array items)
  | entry {j v : Json} {key : String} {entries : List (String × Json)} :
      (key, v) ∈ entries → Part j v → Part j (.object entries)

namespace Part

/-- A part of a part is a part. -/
theorem trans {a b c : Json} (hab : Part a b) (hbc : Part b c) : Part a c := by
  induction hbc with
  | refl => exact hab
  | item hmem _ ih => exact .item hmem ih
  | entry hmem _ ih => exact .entry hmem ih

/-- Null has no part but itself. -/
theorem eq_of_null {j : Json} (h : Part j .null) : j = .null := by
  cases h
  rfl

/-- What a key reads is a part of the object. -/
theorem of_entryValue? {key : String} {v : Json} {entries : List (String × Json)}
    (h : entryValue? key entries = some v) : Part v (.object entries) := by
  obtain ⟨e, he, rfl⟩ := Option.map_eq_some_iff.1 h
  exact .entry (List.mem_of_find?_eq_some he) (.refl _)

end Part

/-- Induction along the items of arrays and the entries of objects. -/
@[elab_as_elim]
theorem partInduction {motive : Json → Prop}
    (step : ∀ j, (∀ items, j = .array items → ∀ i ∈ items, motive i) →
      (∀ entries, j = .object entries → ∀ e ∈ entries, motive e.2) → motive j) (j : Json) :
    motive j :=
  step j (fun items _hj i _hi => partInduction step i)
    fun entries _hj e _he => partInduction step e.2
termination_by sizeOf j
decreasing_by
  · subst _hj
    have hitem := List.sizeOf_lt_of_mem _hi
    simp only [Json.array.sizeOf_spec]
    omega
  · subst _hj
    have hentry := List.sizeOf_lt_of_mem _he
    obtain ⟨key, value⟩ := e
    simp only [Json.object.sizeOf_spec, Prod.mk.sizeOf_spec] at hentry ⊢
    omega

end PathAccess.Json
