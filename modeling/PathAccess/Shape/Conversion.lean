import PathAccess.Shape.Basic
/-!
# Equal and convertible shapes

`same` compares two shapes part by part: records by name, members in order, fallback and reason.
`convertsTo` says when a value of one shape can be read as another: integers widen to doubles,
everything can be read as `any`, an optional target takes what its inner shape takes, lists and
maps follow their elements, and records convert by name.
-/

namespace PathAccess.Shape

mutual

/-- Equality of shapes. Fallbacks are compared as JSON values. -/
def same : Shape → Shape → Bool
  | bool, bool => true
  | integer, integer => true
  | float, float => true
  | text, text => true
  | any, any => true
  | list a, list b => same a b
  | map a, map b => same a b
  | optional a, optional b => same a b
  | record a, record b => sameRecord a b
  | _, _ => false

/-- Equality of records. -/
def sameRecord : Record Shape → Record Shape → Bool
  | ⟨name, members, fallback, reason⟩, other =>
    name == other.name && sameMembers members other.members &&
      (match fallback, other.fallback with
        | some a, some b => a.same b
        | none, none => true
        | _, _ => false) &&
      reason == other.fallbackError

/-- Equality of members, one by one. -/
def sameMembers : List (String × Shape) → List (String × Shape) → Bool
  | [], [] => true
  | (m, a) :: as, (n, b) :: bs => m == n && same a b && sameMembers as bs
  | _, _ => false

end

/-- Whether a value of the source shape can be read as the target shape. -/
def convertsTo (source target : Shape) : Bool :=
  source.same target ||
    match target with
    | any => true
    | float => match source with
      | integer => true
      | _ => false
    | optional inner => match source with
      | optional s => s.convertsTo inner
      | s => s.convertsTo inner
    | list b => match source with
      | list a => a.convertsTo b
      | _ => false
    | map b => match source with
      | map a => a.convertsTo b
      | _ => false
    | record b => match source with
      | record a => a.name == b.name
      | _ => false
    | _ => false
termination_by structural target

end PathAccess.Shape
