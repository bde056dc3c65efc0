import PathAccess.Comparison
import PathAccess.Path.Reader
import PathAccess.Shape.Basic
/-!
# Errors of compilation

Each error is a cause with the data that it is about; the wording stands in `message` alone.
-/

namespace PathAccess

/-- Why a path could not be compiled. -/
inductive CompileError where
  /-- The path could not be read. -/
  | syntaxError (e : Path.ReadError)
  /-- The path holds the character that stands in for escaped dots. -/
  | reservedCharacter (path : String)
  /-- The path holds an element that is not followed. -/
  | unsupportedElement (e : Element)
  /-- A filter holds no operator. -/
  | noOperator (filter : String)
  /-- A filter asks for an order where the field has none. -/
  | unorderedField (filter : String) (op : Comparison) (field : Shape)
  /-- A literal of a filter is not of the field's shape. -/
  | literalMismatch (expected : Shape) (literal : String)
  /-- The result cannot be read as the requested shape. -/
  | resultMismatch (requested produced : Shape)
  /-- A record has no fallback for a guard. -/
  | noFallback (record : String)
  /-- A record's declared default has no JSON form. -/
  | fallbackNotJson (record reason : String)
  /-- A record has no such member. -/
  | unknownMember (record member : String)
  /-- A filter stands behind something that is not a list. -/
  | notACollection (found : Shape)
  /-- A name stands behind something that has no members. -/
  | notNavigable (found : Shape) (member : String)

/-- The text of a compilation error. -/
def CompileError.message : CompileError → String
  | syntaxError e => "Path syntax error: " ++ e.message
  | reservedCharacter path =>
    "Path contains the reserved escape placeholder: '" ++ path ++ "'"
  | unsupportedElement e => "Unsupported path element '" ++ e.render ++ "' (" ++ e.kind ++ ")"
  | noOperator filter =>
    "Cannot translate filter '" ++ filter ++ "': no comparison operator found"
  | unorderedField filter op field =>
    "Cannot translate filter '" ++ filter ++ "': operator '" ++ op.token ++
      "' needs an ordered field, found " ++ field.display
  | literalMismatch expected literal =>
    "Type mismatch: expected a " ++ expected.display ++ " literal, found '" ++ literal ++ "'"
  | resultMismatch requested produced =>
    "Type mismatch: expected " ++ requested.display ++ ", found " ++ produced.display
  | noFallback record =>
    "Type '" ++ record ++ "' has no default value to use as a null-safety fallback"
  | fallbackNotJson record reason =>
    "Default value of type '" ++ record ++ "' could not be serialized: " ++ reason
  | unknownMember record member =>
    "Type '" ++ record ++ "' has no member '" ++ member ++ "'"
  | notACollection found => "Filter requires a collection, found " ++ found.display
  | notNavigable found member =>
    "Cannot access '" ++ member ++ "' on a value of type " ++ found.display

end PathAccess
