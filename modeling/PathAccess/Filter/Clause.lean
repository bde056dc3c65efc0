import PathAccess.Comparison
import PathAccess.CompileError
import PathAccess.Path.Escape
import PathAccess.Text.Blank
/-!
# Filter clauses

A filter such as `@.Nested.Name=='Nested3'` is one comparison. The text is cut at its first
operator, the longer of two that fit. The part before it names the field, the element itself when
it names nothing; the part behind it is the literal, from which one quote at each end is dropped.
Escaped dots are restored on both sides.
-/

namespace PathAccess.Filter

/-- A filter as it is written. -/
structure Clause where
  /-- The names from the element to the compared field. -/
  names : List String
  op : Comparison
  /-- The literal, without its quotes. -/
  literal : String
  /-- Whether the literal had a quote at an end. -/
  quoted : Bool
deriving DecidableEq

/-- The operator at the head of a text, and what follows it. -/
def operator? : List Char → Option (Comparison × List Char)
  | '=' :: '=' :: cs => some (.equal, cs)
  | '!' :: '=' :: cs => some (.notEqual, cs)
  | '<' :: '=' :: cs => some (.lessOrEqual, cs)
  | '>' :: '=' :: cs => some (.greaterOrEqual, cs)
  | '<' :: cs => some (.less, cs)
  | '>' :: cs => some (.greater, cs)
  | _ => none

/-- The text before the first operator, the operator, and the text behind it. -/
def splitAtOperator : List Char → Option (List Char × Comparison × List Char)
  | [] => none
  | c :: cs =>
    match operator? (c :: cs) with
    | some (op, rest) => some ([], op, rest)
    | none => (splitAtOperator cs).map fun (left, op, rest) => (c :: left, op, rest)

/-- The parts of a text between its dots. -/
def splitAtDots : List Char → List (List Char)
  | [] => [[]]
  | c :: cs =>
    if c = '.' then [] :: splitAtDots cs
    else match splitAtDots cs with
      | [] => [[c]]
      | part :: parts => (c :: part) :: parts

/-- Drops the sign that stands for the element at the head of a filter. -/
def dropMarker : List Char → List Char
  | '@' :: cs => cs
  | '*' :: cs => cs
  | cs => cs

/-- Whether a character is a quote of either kind. -/
def isQuote (c : Char) : Bool :=
  c == '"' || c == '\''

/-- Drops a quote at the head of a text, and says whether there was one. -/
def dropQuote : List Char → List Char × Bool
  | [] => ([], false)
  | c :: cs => if isQuote c then (cs, true) else (c :: cs, false)

/-- Drops a quote at each end of a text, and says whether there was one at all. The two need not
be of one kind. -/
def dropQuotes (cs : List Char) : List Char × Bool :=
  let (inner, opened) := dropQuote cs
  let (inner, closed) := dropQuote inner.reverse
  (inner.reverse, opened || closed)

/-- The names of the field, from the text before the operator. -/
def fieldNames (left : List Char) : List String :=
  (((splitAtDots left).map Text.trim).filter fun part => !part.isEmpty).map fun part =>
    String.ofList (Path.restoreDots part)

namespace Clause

/-- The clause that a text stands for, by characters. -/
def ofChars? (cs : List Char) : Option Clause :=
  (splitAtOperator (dropMarker (Text.trim cs))).map fun (left, op, right) =>
    let (literal, quoted) := dropQuotes (Text.trim right)
    ⟨fieldNames left, op, String.ofList (Path.restoreDots literal), quoted⟩

/-- The clause that a text stands for. -/
def parse (text : String) : Except CompileError Clause :=
  match ofChars? text.toList with
  | some clause => .ok clause
  | none => .error (.noOperator text)

end Clause

end PathAccess.Filter
