import PathAccess.Shape.Basic
/-!
# Values that fit a shape

What a shape promises of a value. There are two readings of a promise. Under the strict one null
fits only an optional shape; under the lenient one it fits every shape that is not a value kind,
as documents in practice have it. In both, a member that is missing from an object counts as null.
-/

namespace PathAccess

/-- Whether null fits shapes that are not optional. -/
inductive NullRule where
  | strict
  | lenient
deriving DecidableEq

namespace Shape

mutual

/-- A value keeps the promise of a shape. -/
def Fits (rule : NullRule) : Shape → Json → Prop
  | bool, j => ∃ b, j = .bool b
  | integer, j => ∃ n, j = .number (.whole n)
  | float, j => ∃ n, j = .number n
  | text, j => (rule = .lenient ∧ j = .null) ∨ ∃ s, j = .string s
  | any, _ => True
  | list element, j =>
    (rule = .lenient ∧ j = .null) ∨ ∃ items, j = .array items ∧ ∀ i ∈ items, element.Fits rule i
  | map value, j =>
    (rule = .lenient ∧ j = .null) ∨
      ∃ entries, j = .object entries ∧ ∀ e ∈ entries, value.Fits rule e.2
  | optional inner, j => j = .null ∨ inner.Fits rule j
  | record r, j =>
    (rule = .lenient ∧ j = .null) ∨ ∃ entries, j = .object entries ∧ RecordFits rule r entries

/-- The entries of an object keep the promise of a record. -/
def RecordFits (rule : NullRule) : Record Shape → List (String × Json) → Prop
  | ⟨_, members, _, _⟩, entries => MembersFit rule members entries

/-- Each member finds a fitting entry, or fits null. -/
def MembersFit (rule : NullRule) : List (String × Shape) → List (String × Json) → Prop
  | [], _ => True
  | (name, s) :: members, entries =>
    s.Fits rule ((Json.entryValue? name entries).getD .null) ∧ MembersFit rule members entries

end

/-- Members fit when each of them does. -/
theorem membersFit_iff (rule : NullRule) (members : List (String × Shape))
    (entries : List (String × Json)) :
    MembersFit rule members entries ↔
      ∀ m ∈ members, m.2.Fits rule ((Json.entryValue? m.1 entries).getD .null) := by
  induction members with
  | nil => simp [MembersFit]
  | cons m members ih =>
    obtain ⟨name, s⟩ := m
    simp [MembersFit, ih]

/-- The entries of an object fit a record when each of its members finds one that fits. -/
theorem recordFits_iff (rule : NullRule) (r : Record Shape) (entries : List (String × Json)) :
    RecordFits rule r entries ↔
      ∀ m ∈ r.members, m.2.Fits rule ((Json.entryValue? m.1 entries).getD .null) := by
  cases r
  exact membersFit_iff ..

/-- Null fits every shape that may be null, under the lenient rule. -/
theorem fits_null_of_isNullable {s : Shape} (h : s.isNullable = true) : s.Fits .lenient .null := by
  cases s <;> simp_all [isNullable, isValueKind, Fits]

/-- Only an optional shape and `any` promise nothing against null, under the strict rule. -/
theorem fits_null_strict_iff (s : Shape) :
    s.Fits .strict .null ↔ s = any ∨ ∃ inner, s = optional inner := by
  cases s <;> simp [Fits]

end Shape

end PathAccess
