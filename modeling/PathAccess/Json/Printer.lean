import PathAccess.Json.Basic
import PathAccess.Text.Quoted
/-!
# Writing JSON

The compact form: no blanks, entries in the order of their keys. A string escapes the double
quote, the backslash and the control characters, and nothing else.
-/

namespace PathAccess.Json

/-- How one character is written inside a string. -/
def writtenChar (c : Char) : List Char :=
  if c = '"' then ['\\', '"']
  else if c = '\\' then ['\\', '\\']
  else if c = '\n' then ['\\', 'n']
  else if c = '\r' then ['\\', 'r']
  else if c = '\t' then ['\\', 't']
  else if c.toNat = 8 then ['\\', 'b']
  else if c.toNat = 12 then ['\\', 'f']
  else if c.toNat < 0x10 then ['\\', 'u', '0', '0', '0'] ++ Text.hexDigits c.toNat
  else if c.toNat < 0x20 then ['\\', 'u', '0', '0'] ++ Text.hexDigits c.toNat
  else [c]

/-- A string between double quotes. -/
def writtenString (s : String) : List Char :=
  '"' :: s.toList.flatMap writtenChar ++ ['"']

mutual

/-- The compact form of a value. -/
def written : Json → List Char
  | null => "null".toList
  | bool true => "true".toList
  | bool false => "false".toList
  | number n => n.written
  | string s => writtenString s
  | array items => '[' :: writtenItems items ++ [']']
  | object entries => '\x7b' :: writtenEntries entries ++ ['\x7d']

/-- Items with a comma between two. -/
def writtenItems : List Json → List Char
  | [] => []
  | [item] => written item
  | item :: rest => written item ++ ',' :: writtenItems rest

/-- Entries with a comma between two. -/
def writtenEntries : List (String × Json) → List Char
  | [] => []
  | [(key, value)] => writtenString key ++ ':' :: written value
  | (key, value) :: rest => writtenString key ++ ':' :: written value ++ ',' :: writtenEntries rest

end

/-- The compact form of a value, as a text. -/
def render (j : Json) : String :=
  String.ofList j.written

end PathAccess.Json
