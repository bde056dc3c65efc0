import PathAccess.Json.Printer
import PathAccess.Text.Quoted
/-!
# Mismatches

Why a JSON value could not be read as a value of some type: its kind is wrong, a number does not
fit, a text is not one character long, a fixed-size array has the wrong length, or a type with a
reader of its own has a reason of its own.
-/

namespace PathAccess

/-- Why a JSON value is not of a type. What was expected is given in words. -/
inductive Mismatch where
  | wrongKind (found : Json) (expected : String)
  | outOfRange (n : Int) (expected : String)
  | notOneCharacter (found : String)
  | tooShort (found size : Nat)
  | tooLong (found : Nat)
  | refused (reason : String)

namespace Mismatch

/-- A JSON value as messages name it. -/
def describe : Json → String
  | .null => "null"
  | .bool true => "boolean `true`"
  | .bool false => "boolean `false`"
  | .number (.whole n) => "integer `" ++ String.ofList n.written ++ "`"
  | .number (.float d) => "floating point `" ++ String.ofList d.written ++ "`"
  | .string s => "string " ++ Text.quoted s
  | .array _ => "sequence"
  | .object _ => "map"

/-- The text of a mismatch. -/
def message : Mismatch → String
  | wrongKind found expected => "invalid type: " ++ describe found ++ ", expected " ++ expected
  | outOfRange n expected =>
    "invalid value: integer `" ++ toString n ++ "`, expected " ++ expected
  | notOneCharacter found =>
    "invalid value: string " ++ Text.quoted found ++ ", expected a character"
  | tooShort found size =>
    "invalid length " ++ toString found ++ ", expected an array of length " ++ toString size
  | tooLong found =>
    "invalid length " ++ toString found ++ ", expected fewer elements in array"
  | refused reason => reason

end Mismatch

end PathAccess
