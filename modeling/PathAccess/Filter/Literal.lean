import PathAccess.Filter.Clause
import PathAccess.Json.Parser
/-!
# Literals of filters

The shape of the compared field decides how a literal is read. A text takes it as it stands; a
boolean and a number must be spelled as one; an optional field takes the bare word `null` too.
Behind `any` a bare literal is read as JSON and taken as a string if it is not. Lists, maps and
records have no literals.
-/

namespace PathAccess.Filter

/-- A whole number's literal as a JSON value. -/
def wholeLiteral? (literal : String) : Option Json :=
  (Numeral.readWhole? literal.toList).map fun n => .number (.whole n)

/-- A double's literal as a JSON value. -/
def floatLiteral? (literal : String) : Option Json :=
  (Numeral.readFloat? literal.toList).map fun d => .number (.float d)

/-- A boolean's literal as a JSON value. -/
def boolLiteral? (literal : String) : Option Json :=
  if literal = "true" then some (.bool true)
  else if literal = "false" then some (.bool false)
  else none

/-- The value of a literal, or the error that it is not of the shape. -/
def orMismatch (literal : String) (shape : Shape) : Option Json → Except CompileError Json
  | some value => .ok value
  | none => .error (.literalMismatch shape literal)

/-- The value that a clause's literal stands for, for a field of the given shape. -/
def operand (clause : Clause) : Shape → Except CompileError Json
  | .text => .ok (.string clause.literal)
  | .integer => orMismatch clause.literal .integer (wholeLiteral? clause.literal)
  | .float => orMismatch clause.literal .float (floatLiteral? clause.literal)
  | .bool => orMismatch clause.literal .bool (boolLiteral? clause.literal)
  | .optional inner =>
    if clause.literal = "null" ∧ clause.quoted = false then .ok .null else operand clause inner
  | .any =>
    if clause.quoted then .ok (.string clause.literal)
    else .ok ((Json.parse? clause.literal).getD (.string clause.literal))
  | shape => orMismatch clause.literal shape none

end PathAccess.Filter
