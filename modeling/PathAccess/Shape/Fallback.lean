import PathAccess.CompileError
/-!
# Fallbacks and zeros

Two values belong to a shape. The fallback is what a guard yields in place of a result of that
shape; a record has one only if it declares it. The zero is what a lookup or a filter yields when
it finds nothing: null, but the natural zero for the shapes that are never null.
-/

namespace PathAccess.Shape

/-- The value that a guard yields for a result of this shape. -/
def fallback : Shape → Except CompileError Json
  | text => .ok (.string "")
  | bool => .ok (.bool false)
  | integer => .ok .zero
  | float => .ok .floatZero
  | list _ => .ok (.array [])
  | map _ | any => .ok (.object [])
  | optional inner => inner.fallback
  | record r => match r.fallback, r.fallbackError with
    | some value, _ => .ok value
    | none, some reason => .error (.fallbackNotJson r.name reason)
    | none, none => .error (.noFallback r.name)

/-- The value that stands for nothing found. -/
def zero : Shape → Json
  | bool => .bool false
  | integer => .zero
  | float => .floatZero
  | _ => .null

/-- The fallback looks through optional layers. -/
@[simp] theorem fallback_nonNull (s : Shape) : s.nonNull.fallback = s.fallback := by
  fun_induction nonNull s <;> simp_all [fallback]

/-- A shape whose values may be null has null for its zero. -/
theorem zero_of_isNullable {s : Shape} (h : s.isNullable = true) : s.zero = .null := by
  cases s <;> simp_all [isNullable, isValueKind, zero]

end PathAccess.Shape
