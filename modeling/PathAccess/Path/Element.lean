/-!
# Path elements

A path is read into a list of elements, of which the first is the root. The compiler follows
properties and filters; the other kinds are known so that they can be named when they are refused
or skipped. The rendering of elements is a path in itself, with every name in quoted form.
-/

namespace PathAccess

/-- One element of a path. -/
inductive Element where
  /-- The root, always the first element. -/
  | root
  /-- A descent to any depth. -/
  | recursiveDescent
  | property (name : String)
  | anyProperty
  | propertyList (names : List String)
  | arrayIndex (index : Int)
  | anyArrayIndex
  | arrayIndexList (indexes : List Int)
  | arraySlice (start stop step : Option Int)
  /-- A script in parentheses. -/
  | expression (text : String)
  /-- A filter, without its brackets and parentheses. -/
  | filter (predicate : String)
deriving DecidableEq

namespace Element

/-- The name of the kind of an element, for diagnostics. -/
def kind : Element → String
  | root => "root"
  | recursiveDescent => "recursive descent"
  | property _ => "property"
  | anyProperty => "any property"
  | propertyList _ => "property list"
  | arrayIndex _ => "array index"
  | anyArrayIndex => "any array index"
  | arrayIndexList _ => "array index list"
  | arraySlice _ _ _ => "array slice"
  | expression _ => "expression"
  | filter _ => "filter expression"

/-- Whether the compiler follows elements of this kind. -/
def isSupported : Element → Bool
  | root | property _ | filter _ => true
  | _ => false

/-! ## Rendering -/

/-- An index in decimal. -/
def renderIndex (index : Int) : List Char :=
  (if index < 0 then ['-'] else []) ++ Nat.toDigits 10 index.natAbs

/-- A name between single quotes, as it is. -/
def renderName (name : String) : List Char :=
  '\'' :: name.toList ++ ['\'']

/-- Parts with a comma between two. -/
def commaSeparated (parts : List (List Char)) : List Char :=
  [','].intercalate parts

/-- The part of a slice before a colon. -/
def renderBound (bound : Option Int) : List Char :=
  (bound.map renderIndex).getD []

/-- An element as a part of a path, by characters. -/
def renderChars : Element → List Char
  | root => ['$']
  | recursiveDescent => ['.', '.']
  | property name => '[' :: renderName name ++ [']']
  | anyProperty => ['.', '*']
  | propertyList names => '[' :: commaSeparated (names.map renderName) ++ [']']
  | arrayIndex index => '[' :: renderIndex index ++ [']']
  | anyArrayIndex => ['[', '*', ']']
  | arrayIndexList indexes => '[' :: commaSeparated (indexes.map renderIndex) ++ [']']
  | arraySlice start stop step =>
    '[' :: renderBound start ++ ':' :: renderBound stop ++
      ((step.map fun s => ':' :: renderIndex s).getD []) ++ [']']
  | expression text => ['[', '('] ++ text.toList ++ [')', ']']
  | filter predicate => ['[', '?', '('] ++ predicate.toList ++ [')', ']']

/-- An element as a part of a path. -/
def render (e : Element) : String :=
  String.ofList e.renderChars

/-- Elements as a path. -/
def renderAll (es : List Element) : String :=
  String.ofList (es.flatMap renderChars)

end Element

end PathAccess
