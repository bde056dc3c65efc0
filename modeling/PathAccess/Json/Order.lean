import PathAccess.Json.Basic
/-!
# Comparing values

Three relations, each for one purpose. `scalarOrder?` is the natural order of two numbers, two
strings or two booleans, and of nothing else: the relational operators of a filter ask it.
`equal` is the equality of a filter, where `7` and `7.0` are the same number. `totalOrder` puts
any two values in order, for sorting: by kind, then by the natural order, arrays item by item,
and any two objects alike.
-/

namespace PathAccess.Json

/-- The order of two strings, by code point. -/
def stringOrder (a b : String) : Ordering :=
  if a < b then .lt else if a = b then .eq else .gt

/-- The order of two booleans: `false` before `true`. -/
def boolOrder : Bool → Bool → Ordering
  | false, true => .lt
  | true, false => .gt
  | _, _ => .eq

/-- The natural order of two scalars of one kind. -/
def scalarOrder? : Json → Json → Option Ordering
  | number a, number b => some (a.order b)
  | string a, string b => some (stringOrder a b)
  | bool a, bool b => some (boolOrder a b)
  | _, _ => none

/-- Equality of values, where two numbers that compare equal at the top are the same. -/
def equal : Json → Json → Bool
  | number a, number b => a.order b == .eq
  | a, b => a.same b

/-- The place of a kind of value in the total order. -/
def rank : Json → Nat
  | null => 0
  | bool _ => 1
  | number _ => 2
  | string _ => 3
  | array _ => 4
  | object _ => 5

mutual

/-- The order of any two values. -/
def totalOrder : Json → Json → Ordering
  | array as, array bs => itemOrder as bs
  | a, b => (compare a.rank b.rank).then ((scalarOrder? a b).getD .eq)

/-- The order of two arrays: that of their first items that differ in order, or else of their
lengths. -/
def itemOrder : List Json → List Json → Ordering
  | [], [] => .eq
  | [], _ :: _ => .lt
  | _ :: _, [] => .gt
  | a :: as, b :: bs => (totalOrder a b).then (itemOrder as bs)

end

end PathAccess.Json
