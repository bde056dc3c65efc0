import PathAccess.Shape.Fallback
import PathAccess.Shape.Fitting
/-!
# Parts of a shape, and the values that shapes supply

A part of a shape is the shape itself or a part of its elements, its
values, its inner shape or one of its members. What is asked of every
record inside a shape is asked of its parts, and so it carries over to
each shape that a path reaches.

The two values that a shape supplies keep its promise: the zero always,
and the fallback where the fallbacks that records declare do.
-/

namespace PathAccess.Shape

/-- The first shape is the second or stands inside it. -/
inductive Part : Shape → Shape → Prop where
  | refl (s : Shape) : Part s s
  | element {s element : Shape} : Part s element → Part s (.list element)
  | value {s value : Shape} : Part s value → Part s (.map value)
  | inner {s inner : Shape} : Part s inner → Part s (.optional inner)
  | member {s m : Shape} {name : String} {r : Record Shape} :
      (name, m) ∈ r.members → Part s m → Part s (.record r)

/-- Every fallback that a record inside the shape declares fits that
record. -/
def FallbacksFit (s : Shape) : Prop :=
  ∀ r d, Part (.record r) s → r.fallback = some d → (record r).Fits .lenient d

/-- No record inside the shape declares null for its fallback. -/
def NoNullFallback (s : Shape) : Prop :=
  ∀ r, Part (.record r) s → r.fallback ≠ some .null

variable {s t : Shape} {j d : Json} {rule : NullRule}

namespace Part

/-- A part of a part is a part. -/
theorem trans {a b c : Shape} (hab : Part a b) (hbc : Part b c) : Part a c := by
  induction hbc with
  | refl => exact hab
  | element _ ih => exact .element ih
  | value _ ih => exact .value ih
  | inner _ ih => exact .inner ih
  | member hmem _ ih => exact .member hmem ih

/-- The shape under the optional layers is a part. -/
theorem nonNull (s : Shape) : Part s.nonNull s := by
  fun_induction Shape.nonNull s with
  | case1 inner ih => exact .inner ih
  | case2 => exact .refl _

end Part

/-- Induction along the parts of a shape. -/
@[elab_as_elim]
theorem partInduction {motive : Shape → Prop} (bool : motive .bool) (integer : motive .integer)
    (float : motive .float) (text : motive .text) (any : motive .any)
    (list : ∀ element, motive element → motive (.list element))
    (map : ∀ value, motive value → motive (.map value))
    (optional : ∀ inner, motive inner → motive (.optional inner))
    (record : ∀ r : Record Shape, (∀ m ∈ r.members, motive m.2) → motive (.record r))
    (s : Shape) : motive s := by
  refine @Shape.rec motive (fun r => ∀ m ∈ r.members, motive m.2)
    (fun members => ∀ m ∈ members, motive m.2) (fun m => motive m.2)
    bool integer float text any list map optional record ?_ ?_ ?_ ?_ s
  · exact fun _ _ _ _ hmembers => hmembers
  · exact fun _ hm => absurd hm List.not_mem_nil
  · exact fun _ _ hm hmembers => List.forall_mem_cons.2 ⟨hm, hmembers⟩
  · exact fun _ _ hm => hm

theorem FallbacksFit.of_part (h : s.FallbacksFit) (hpart : Part t s) : t.FallbacksFit :=
  fun r d hr hd => h r d (hr.trans hpart) hd

theorem NoNullFallback.of_part (h : s.NoNullFallback) (hpart : Part t s) : t.NoNullFallback :=
  fun r hr => h r (hr.trans hpart)

/-! ## Fitting and null -/

/-- What fits under the optional layers fits the shape. -/
theorem fits_of_fits_nonNull (h : s.nonNull.Fits rule j) : s.Fits rule j := by
  fun_induction Shape.nonNull s with
  | case1 inner ih => exact Or.inr (ih h)
  | case2 => exact h

/-- **Optional layers only add null.** -/
theorem fits_nonNull (h : s.Fits rule j) (hne : j ≠ .null) : s.nonNull.Fits rule j := by
  fun_induction Shape.nonNull s with
  | case1 inner ih => exact ih (h.resolve_left hne)
  | case2 => exact h

/-- A shape that is never null is not fitted by it. -/
theorem not_fits_null (h : s.isNullable = false) : ¬ s.Fits rule .null := by
  cases s <;> simp_all [isNullable, isValueKind, Fits]

/-! ## Zeros and fallbacks -/

/-- **The zero of a shape fits it.** -/
theorem fits_zero (s : Shape) : s.Fits .lenient s.zero := by
  cases hs : s.isNullable with
  | true =>
    rw [zero_of_isNullable hs]
    exact fits_null_of_isNullable hs
  | false => cases s <;> simp_all [isNullable, isValueKind, Fits, zero, Json.zero, Json.floatZero]

/-- What a record's fallback is where it has one. -/
theorem fallback_of_fallback_record {r : Record Shape} (h : (record r).fallback = .ok d) :
    r.fallback = some d := by
  simp only [Shape.fallback] at h
  split at h
  · rename_i value hvalue
    cases h
    exact hvalue
  · cases h
  · cases h

/-- **The fallback of a shape fits it**, if those of its records do. -/
theorem fits_fallback (h : s.FallbacksFit) (hd : s.fallback = .ok d) : s.Fits .lenient d := by
  apply fits_of_fits_nonNull
  have hpart := Part.nonNull s
  rw [← fallback_nonNull] at hd
  cases hs : s.nonNull with
  | optional inner => exact absurd hs (nonNull_ne_optional s inner)
  | record r =>
    rw [hs] at hd hpart
    exact h r d hpart (fallback_of_fallback_record hd)
  | _ =>
    rw [hs] at hd
    cases hd
    simp [Fits, Json.zero, Json.floatZero]

/-- And it is not null, if those of its records are not. -/
theorem fallback_ne_null (h : s.NoNullFallback) (hd : s.fallback = .ok d) : d ≠ .null := by
  have hpart := Part.nonNull s
  rw [← fallback_nonNull] at hd
  cases hs : s.nonNull with
  | optional inner => exact absurd hs (nonNull_ne_optional s inner)
  | record r =>
    rw [hs] at hd hpart
    rintro rfl
    exact h r hpart (fallback_of_fallback_record hd)
  | _ =>
    rw [hs] at hd
    cases hd
    exact nofun

end PathAccess.Shape
