import PathAccess.AccessError
/-!
# Evaluating plans

A plan is evaluated from the root outwards. A step that does not apply fails with the read it
belongs to; a guard evaluates its body only where its subject is not null. Whatever is read out of
a constant counts as a constant.
-/

namespace PathAccess.Plan

/-- Applies a step to what its base read. The plan is the read that errors name. -/
def applyStep (plan : Plan) (step : Step) (base : Reading) : Except AccessError Reading :=
  match step.apply base.value with
  | .ok r => .ok (r.outOf base.origin)
  | .error e => .error (.ofStep plan e)

/-- What a plan reads from a root. -/
def evaluate (document : Json) : Plan → Except AccessError Reading
  | root => .ok (.found document)
  | access base step =>
    match evaluate document base with
    | .ok r => applyStep (access base step) step r
    | .error e => .error e
  | guarded subject fallback body =>
    match evaluate document subject with
    | .ok r => if r.value.isNull then .ok (.constant fallback) else evaluate document body
    | .error e => .error e

/-- The value that a plan reads from a root. -/
def value (plan : Plan) (document : Json) : Except AccessError Json :=
  (plan.evaluate document).map Reading.value

end PathAccess.Plan
