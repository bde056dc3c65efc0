import PathAccess.Number.Binary32
import PathAccess.Result.Mismatch
import PathAccess.Shape.Conversion
/-!
# Result types

The types that results can be read as. Each publishes a shape, against which the result of a path
is checked before anything is evaluated, and each reads a JSON value or says why it cannot. What
was read can be written back. The two floating-point types take a whole number too, rounded; no
other type takes a number of another kind. Elements and entries are read in order, and the first
that fails is told. What a record type takes is for the type to say.
-/

-- powers are those of the core library, also where others are in scope
attribute [local instance (2000)] instPowNat

namespace PathAccess

/-- A fixed-width integer type. -/
structure IntegerType where
  signed : Bool
  bits : Nat
deriving DecidableEq

namespace IntegerType

/-- The smallest integer of the type. -/
def low (t : IntegerType) : Int :=
  if t.signed then -2 ^ (t.bits - 1) else 0

/-- The largest integer of the type. -/
def high (t : IntegerType) : Int :=
  (if t.signed then 2 ^ (t.bits - 1) else 2 ^ t.bits) - 1

/-- The name of the type. -/
def name (t : IntegerType) : String :=
  (if t.signed then "i" else "u") ++ toString t.bits

end IntegerType

/-- A type that a result can be read as. -/
inductive ResultType where
  /-- Any JSON value, published under a shape. -/
  | json (shape : Shape)
  | bool
  | integer (t : IntegerType)
  | float
  /-- A number of single precision. -/
  | single
  | text
  /-- A text of exactly one character. -/
  | character
  | optional (inner : ResultType)
  | list (element : ResultType)
  /-- A list of fixed length. -/
  | array (element : ResultType) (size : Nat)
  /-- An object whose values are of one type. -/
  | map (value : ResultType)
  /-- A type of its own that is published as a record, with the check that its reader makes. -/
  | record (r : Record Shape) (check : Json → Except String Unit)

namespace ResultType

/-- The shape that a type publishes. -/
def shape : ResultType → Shape
  | json shape => shape
  | bool => .bool
  | integer _ => .integer
  | float => .float
  | single => .float
  | text => .text
  | character => .text
  | optional inner => inner.shape.ofOptional
  | list element => .list element.shape
  | array element _ => .list element.shape
  | map value => .map value.shape
  | record r _ => .record r

/-- The values of a type. Those of a record type are kept in their JSON form. -/
def Value : ResultType → Type
  | json _ => Json
  | bool => Bool
  | integer _ => Whole
  | float => Binary64
  | single => Binary32
  | text => String
  | character => Char
  | optional inner => Option inner.Value
  | list element => List element.Value
  | array element _ => List element.Value
  | map value => List (String × value.Value)
  | record _ _ => Json

/-- What a type expects, in words. -/
def expectation : ResultType → String
  | json _ => "any value"
  | bool => "a boolean"
  | integer t => t.name
  | float => "f64"
  | single => "f32"
  | text => "a string"
  | character => "a character"
  | optional inner => inner.expectation
  | list _ => "a sequence"
  | array _ size => "an array of length " ++ toString size
  | map _ => "a map"
  | record r _ => "struct " ++ r.name

/-! ## Reading -/

/-- Reads the items of a list in order, up to the first that fails. -/
def decodeItems {α : Type} (decode : Json → Except Mismatch α) :
    List Json → Except Mismatch (List α)
  | [] => .ok []
  | item :: items =>
    match decode item with
    | .error e => .error e
    | .ok value => (decodeItems decode items).map (value :: ·)

/-- Reads the values of entries in order, up to the first that fails. -/
def decodeEntries {α : Type} (decode : Json → Except Mismatch α) :
    List (String × Json) → Except Mismatch (List (String × α))
  | [] => .ok []
  | (key, item) :: entries =>
    match decode item with
    | .error e => .error e
    | .ok value => (decodeEntries decode entries).map ((key, value) :: ·)

/-- Reads exactly as many items as asked for. Items are read before the length is judged. -/
def decodeArray {α : Type} (decode : Json → Except Mismatch α) (size : Nat)
    (items : List Json) : Except Mismatch (List α) :=
  match decodeItems decode (items.take size) with
  | .error e => .error e
  | .ok values =>
    if items.length < size then .error (.tooShort items.length size)
    else if size < items.length then .error (.tooLong items.length)
    else .ok values

/-- Reads an integer, which must be in the range of its type. -/
def decodeInteger (t : IntegerType) : Json → Except Mismatch Whole
  | .number (.whole n) =>
    if t.low ≤ n.value ∧ n.value ≤ t.high then .ok n else .error (.outOfRange n.value t.name)
  | j => .error (.wrongKind j t.name)

/-- Reads a truth value. -/
def decodeBool : Json → Except Mismatch Bool
  | .bool b => .ok b
  | j => .error (.wrongKind j bool.expectation)

/-- Reads a number of any kind, rounded. -/
def decodeNumber {α : Type} (expectation : String) (round : Number → α) :
    Json → Except Mismatch α
  | .number n => .ok (round n)
  | j => .error (.wrongKind j expectation)

/-- Reads a text. -/
def decodeText : Json → Except Mismatch String
  | .string s => .ok s
  | j => .error (.wrongKind j text.expectation)

/-- Reads a text of one character. -/
def decodeCharacter : Json → Except Mismatch Char
  | .string s => match s.toList with
    | [c] => .ok c
    | _ => .error (.notOneCharacter s)
  | j => .error (.wrongKind j "a character")

/-- Reads null as nothing, and any other value as it is. -/
def decodeOptional {α : Type} (decode : Json → Except Mismatch α) :
    Json → Except Mismatch (Option α)
  | .null => .ok none
  | j => (decode j).map some

/-- Reads the items of an array. -/
def decodeList {α : Type} (expectation : String) (decode : List Json → Except Mismatch α) :
    Json → Except Mismatch α
  | .array items => decode items
  | j => .error (.wrongKind j expectation)

/-- Reads the entries of an object. -/
def decodeMap {α : Type} (expectation : String) (decode : Json → Except Mismatch α) :
    Json → Except Mismatch (List (String × α))
  | .object entries => decodeEntries decode entries
  | j => .error (.wrongKind j expectation)

/-- Takes a value as it is, if it passes a check. -/
def decodeChecked (check : Json → Except String Unit) (j : Json) : Except Mismatch Json :=
  match check j with
  | .ok () => .ok j
  | .error reason => .error (.refused reason)

/-- Reads a JSON value as a value of a type. -/
def decode : (t : ResultType) → Json → Except Mismatch t.Value
  | json _, j => .ok j
  | bool, j => decodeBool j
  | integer t, j => decodeInteger t j
  | float, j => decodeNumber float.expectation Number.nearest j
  | single, j => decodeNumber single.expectation Number.nearestSingle j
  | text, j => decodeText j
  | character, j => decodeCharacter j
  | optional inner, j => decodeOptional inner.decode j
  | list element, j => decodeList (list element).expectation (decodeItems element.decode) j
  | array element size, j =>
    decodeList (array element size).expectation (decodeArray element.decode size) j
  | map value, j => decodeMap (map value).expectation value.decode j
  | record _ check, j => decodeChecked check j

/-! ## Writing -/

/-- The JSON form of a value of a type. -/
def encode : (t : ResultType) → t.Value → Json
  | json _, j => j
  | bool, b => .bool b
  | integer _, n => .number (.whole n)
  | float, d => .number (.float d)
  | single, d => match d with
    | .finite d => .number (.float d)
    | .infinite _ => .null
  | text, s => .string s
  | character, c => .string (String.singleton c)
  | optional inner, v => match v with
    | none => .null
    | some v => inner.encode v
  | list element, vs => .array (List.map element.encode vs)
  | array element _, vs => .array (List.map element.encode vs)
  | map value, es => .object (List.map (fun (key, v) => (key, value.encode v)) es)
  | record _ _, j => j

end ResultType

end PathAccess
