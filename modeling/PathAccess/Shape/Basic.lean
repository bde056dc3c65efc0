import PathAccess.Json.Basic
import PathAccess.Text.Place
/-!
# Shapes

A shape says what a JSON value looks like: which members a record exposes, which elements a list
holds, and where a value may be null. Paths are compiled against shapes. Records are built member
by member, and a later member replaces an earlier one of its name.
-/

namespace PathAccess

/-- A record over a type of member shapes. The fallback stands in for a record that is missing;
where the declared default has no JSON form, the reason is kept in its place. -/
structure Record (σ : Type) where
  name : String
  members : List (String × σ) := []
  fallback : Option Json := none
  fallbackError : Option String := none

/-- What a JSON value looks like. -/
inductive Shape where
  | bool
  | integer
  | float
  | text
  /-- Any value; its members are found when it is read. -/
  | any
  | list (element : Shape)
  /-- An object whose keys are open and whose values share a shape. -/
  | map (value : Shape)
  /-- A value of the inner shape, or null. -/
  | optional (inner : Shape)
  | record (r : Record Shape)
deriving Inhabited

/-! ## Records -/

namespace Record

variable {σ : Type}

/-- A record without members. -/
def new (name : String) : Record σ := { name }

/-- Adds a member at the end. A member of the same name is taken out first. -/
def addMember (r : Record σ) (name : String) (shape : σ) : Record σ :=
  { r with members := (r.members.filter fun m => m.1 != name) ++ [(name, shape)] }

/-- Declares the value that stands in for a missing record. -/
def withFallback (r : Record σ) (value : Json) : Record σ :=
  { r with fallback := some value }

/-- Notes why the declared default has no JSON form. -/
def withFallbackError (r : Record σ) (reason : String) : Record σ :=
  { r with fallbackError := some reason }

/-- The shape of a member. -/
def member? (r : Record σ) (name : String) : Option σ :=
  (r.members.find? fun m => m.1 == name).map (·.2)

/-- The record with the given members, added in order. -/
def describe (name : String) (members : List (String × σ)) : Record σ :=
  members.foldl (fun r m => r.addMember m.1 m.2) (new name)

/-- Declares a default instance by its JSON form, or by the reason why it has none, of which the
place at its end is written anew. -/
def withDefault (r : Record σ) : Except String Json → Record σ
  | .ok value => r.withFallback value
  | .error reason => r.withFallbackError (Text.settlePlace reason)

end Record

namespace Shape

/-! ## Nullability and parts -/

/-- The optional shape, in which a shape that is optional already is not wrapped again. -/
def ofOptional : Shape → Shape
  | optional inner => optional inner
  | s => optional s

/-- The shapes whose values are never null. -/
def isValueKind : Shape → Bool
  | bool | integer | float => true
  | _ => false

/-- Whether a value of this shape may be null. -/
def isNullable (s : Shape) : Bool :=
  !s.isValueKind

/-- The shape under every optional layer. -/
def nonNull : Shape → Shape
  | optional inner => inner.nonNull
  | s => s

/-- The shape of the elements, under any optional layer. -/
def element? (s : Shape) : Option Shape :=
  match s.nonNull with
  | list element => some element
  | _ => none

/-- The shape of the values of a map, under any optional layer. -/
def mapValue? (s : Shape) : Option Shape :=
  match s.nonNull with
  | map value => some value
  | _ => none

/-- The shape of a record's member, under any optional layer. -/
def member? (s : Shape) (name : String) : Option Shape :=
  match s.nonNull with
  | record r => r.member? name
  | _ => none

/-- Whether values of this shape have a natural order. -/
def isOrderable (s : Shape) : Bool :=
  match s.nonNull with
  | bool | integer | float | text | any => true
  | _ => false

/-- The text that names a shape in messages. -/
def display : Shape → String
  | bool => "bool"
  | integer => "integer"
  | float => "float"
  | text => "text"
  | any => "any"
  | list element => "list<" ++ element.display ++ ">"
  | map value => "map<text, " ++ value.display ++ ">"
  | optional inner => inner.display ++ "?"
  | record r => r.name

/-- No optional layer is left. -/
theorem nonNull_ne_optional (s inner : Shape) : s.nonNull ≠ optional inner := by
  fun_induction nonNull s <;> simp_all

@[simp] theorem nonNull_nonNull (s : Shape) : s.nonNull.nonNull = s.nonNull := by
  fun_induction nonNull s <;> simp_all [nonNull]

@[simp] theorem nonNull_ofOptional (s : Shape) : s.ofOptional.nonNull = s.nonNull := by
  cases s <;> rfl

end Shape

end PathAccess
