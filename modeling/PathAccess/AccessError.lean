import PathAccess.Plan.Basic
import PathAccess.Result.Mismatch
import PathAccess.Text.Place
/-!
# Errors of evaluation

An error of a step names the read that failed: the part of the plan up to and including the step.
-/

namespace PathAccess

/-- The kind of value that a step applies to. -/
inductive Container where
  | object
  | array
deriving DecidableEq

/-- Why a root could not be read. -/
inductive AccessError where
  /-- A step stands behind null. -/
  | nullReference (plan : Plan)
  /-- A step stands behind a value of another kind. -/
  | unexpectedValue (expected : Container) (plan : Plan)
  /-- The item has no JSON form. -/
  | notProjected (reason : String)
  /-- The result is not of the requested type. -/
  | notDecoded (mismatch : Mismatch)

/-- The container in words. -/
def Container.display : Container → String
  | object => "an object"
  | array => "an array"

namespace AccessError

/-- The error of a step at a place of a plan. -/
def ofStep (plan : Plan) : StepError → AccessError
  | .null => nullReference plan
  | .notAnObject => unexpectedValue .object plan
  | .notAnArray => unexpectedValue .array plan

/-- The text of an evaluation error. -/
def message : AccessError → String
  | nullReference plan => "Null reference while evaluating '" ++ plan.display ++ "'"
  | unexpectedValue expected plan =>
    "Expected " ++ expected.display ++ " while evaluating '" ++ plan.display ++ "'"
  | notProjected reason => "JSON serialization/deserialization error: " ++ Text.settlePlace reason
  | notDecoded mismatch => "JSON serialization/deserialization error: " ++ mismatch.message

end AccessError

end PathAccess
