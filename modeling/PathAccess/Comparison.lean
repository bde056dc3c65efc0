import PathAccess.Json.Order
/-!
# Comparisons

The six operators of a filter. Equality and inequality hold or fail for any two values. The four
relational operators ask for the natural order of two scalars of one kind, and fail where there is
none; null has no order.
-/

namespace PathAccess

/-- An operator that compares two values. -/
inductive Comparison where
  | equal
  | notEqual
  | less
  | lessOrEqual
  | greater
  | greaterOrEqual
deriving DecidableEq

namespace Comparison

/-- All operators. -/
def all : List Comparison :=
  [equal, notEqual, less, lessOrEqual, greater, greaterOrEqual]

/-- How the operator is written. -/
def token : Comparison → String
  | equal => "=="
  | notEqual => "!="
  | less => "<"
  | lessOrEqual => "<="
  | greater => ">"
  | greaterOrEqual => ">="

/-- Whether the operator asks for an order. -/
def isRelational : Comparison → Bool
  | equal | notEqual => false
  | _ => true

/-- The orders that satisfy a relational operator. -/
def admits : Comparison → Ordering → Bool
  | less, o => o == .lt
  | lessOrEqual, o => o != .gt
  | greater, o => o == .gt
  | greaterOrEqual, o => o != .lt
  | _, _ => false

/-- Whether the operator holds between two values. -/
def test (op : Comparison) (a b : Json) : Bool :=
  match op with
  | equal => a.equal b
  | notEqual => !a.equal b
  | op => match a.scalarOrder? b with
    | some o => op.admits o
    | none => false

end Comparison

end PathAccess
