import PathAccess.Filter.Predicate
/-!
# Steps

A step reads one value from another: an entry of an object, or the first item of a list that
satisfies a predicate. Null admits no step, and a step of one kind does not apply to values of the
other. Where nothing is found, the step yields a constant of its own; `Origin` keeps such constants
apart from what was found in the document.
-/

namespace PathAccess

/-- Where a value that was read comes from. -/
inductive Origin where
  /-- The root or a part of it. -/
  | document
  /-- A constant of the plan, or a part of one. -/
  | constant
deriving DecidableEq

/-- A value that was read, with its origin. -/
structure Reading where
  value : Json
  origin : Origin

namespace Reading

/-- A part of the document. -/
def found (value : Json) : Reading := ⟨value, .document⟩

/-- A constant of the plan. -/
def constant (value : Json) : Reading := ⟨value, .constant⟩

/-- What is read out of a value of the given origin: only a part of the document can yield one. -/
def outOf (origin : Origin) (r : Reading) : Reading :=
  match origin with
  | .document => r
  | .constant => constant r.value

@[simp] theorem value_outOf (origin : Origin) (r : Reading) : (r.outOf origin).value = r.value := by
  cases origin <;> rfl

@[simp] theorem outOf_constant (origin : Origin) (value : Json) :
    (constant value).outOf origin = constant value := by
  cases origin <;> rfl

/-- What is read in two stages is read out of what the first one read. -/
theorem outOf_outOf (origin : Origin) (base r : Reading) :
    (r.outOf base.origin).outOf origin = r.outOf (base.outOf origin).origin := by
  obtain ⟨value, o⟩ := base
  cases origin <;> cases o <;> rfl

end Reading

/-- One step of a plan. -/
inductive Step where
  | lookup (l : Lookup)
  /-- The first item that satisfies the predicate, or a constant if none does. -/
  | first (p : Filter.Predicate) (miss : Json)

/-- Why a step does not apply to a value. -/
inductive StepError where
  | null
  | notAnObject
  | notAnArray
deriving DecidableEq

namespace Step

/-- The step as a part of a plan. -/
def display : Step → String
  | lookup l => l.display
  | first p _ => ".first_or_default(" ++ p.display ++ ")"

/-- What a lookup reads from the entries of an object. -/
def readEntry (l : Lookup) (entries : List (String × Json)) : Reading :=
  match Json.entryValue? l.key entries with
  | some value => .found value
  | none => .constant l.miss

/-- What a search reads from the items of an array. -/
def readFirst (p : Filter.Predicate) (miss : Json) (items : List Json) : Reading :=
  match items.find? p.holds with
  | some item => .found item
  | none => .constant miss

/-- Applies a step to a value, whose parts count as found. -/
def apply : Step → Json → Except StepError Reading
  | _, .null => .error .null
  | lookup l, .object entries => .ok (readEntry l entries)
  | lookup _, _ => .error .notAnObject
  | first p miss, .array items => .ok (readFirst p miss items)
  | first _ _, _ => .error .notAnArray

end Step

end PathAccess
