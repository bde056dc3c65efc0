import PathAccess.Number.Basic
/-!
# JSON values

The values that paths are read from. The entries of an object stand in the order of their keys,
by code point, and a key stands once: `insertEntry` keeps it so, and a later entry replaces an
earlier one with its key. `same` is equality up to the sign of a zero.
-/

namespace PathAccess

/-- A JSON value. -/
inductive Json where
  | null
  | bool (b : Bool)
  | number (n : Number)
  | string (s : String)
  | array (items : List Json)
  | object (entries : List (String × Json))
deriving Inhabited

namespace Json

/-- The whole number zero. -/
def zero : Json := .number (.whole .zero)

/-- The double zero. -/
def floatZero : Json := .number (.float .zero)

def isNull : Json → Bool
  | null => true
  | _ => false

@[simp] theorem isNull_iff {j : Json} : j.isNull = true ↔ j = null := by
  cases j <;> simp [isNull]

@[simp] theorem isNull_eq_false_iff {j : Json} : j.isNull = false ↔ j ≠ null := by
  cases j <;> simp [isNull]

/-! ## Entries -/

/-- Adds an entry at the place of its key, where it replaces an entry with that key. -/
def insertEntry (key : String) (value : Json) : List (String × Json) → List (String × Json)
  | [] => [(key, value)]
  | (k, v) :: rest =>
    if key = k then (key, value) :: rest
    else if key < k then (key, value) :: (k, v) :: rest
    else (k, v) :: insertEntry key value rest

/-- The object with the given entries, of which a later one replaces an earlier one. -/
def ofEntries (entries : List (String × Json)) : Json :=
  .object (entries.foldl (fun sorted (key, value) => insertEntry key value sorted) [])

/-- The value of an entry. -/
def entryValue? (key : String) (entries : List (String × Json)) : Option Json :=
  (entries.find? fun e => e.1 == key).map (·.2)

/-- The entry of an object. Other values have none. -/
def get? (key : String) : Json → Option Json
  | object entries => entryValue? key entries
  | _ => none

@[simp] theorem entryValue?_nil (key : String) : entryValue? key [] = none := rfl

theorem entryValue?_cons (key k : String) (v : Json) (rest : List (String × Json)) :
    entryValue? key ((k, v) :: rest) = if k = key then some v else entryValue? key rest := by
  by_cases h : k = key <;> simp [entryValue?, h]

/-- What a key reads after an entry was added. -/
theorem entryValue?_insertEntry (key k : String) (v : Json) (entries : List (String × Json)) :
    entryValue? k (insertEntry key v entries) =
      if key = k then some v else entryValue? k entries := by
  induction entries with
  | nil => simp [insertEntry, entryValue?_cons]
  | cons e rest ih =>
    obtain ⟨head, value⟩ := e
    simp only [insertEntry]
    split
    · subst_vars
      by_cases h : head = k <;> simp [entryValue?_cons, h]
    · split
      · simp [entryValue?_cons]
      · rw [entryValue?_cons, entryValue?_cons, ih]
        by_cases h : head = k <;> simp_all

/-! ## Equality -/

mutual

/-- Equality of values. Numbers of different kinds differ; the two zeros of the doubles do not. -/
def same : Json → Json → Bool
  | null, null => true
  | bool a, bool b => a == b
  | number a, number b => a.same b
  | string a, string b => a == b
  | array as, array bs => sameItems as bs
  | object as, object bs => sameEntries as bs
  | _, _ => false

/-- Equality of the items of arrays, one by one. -/
def sameItems : List Json → List Json → Bool
  | [], [] => true
  | a :: as, b :: bs => same a b && sameItems as bs
  | _, _ => false

/-- Equality of entries, one by one. -/
def sameEntries : List (String × Json) → List (String × Json) → Bool
  | [], [] => true
  | (k, a) :: as, (l, b) :: bs => k == l && same a b && sameEntries as bs
  | _, _ => false

end

end Json

end PathAccess
