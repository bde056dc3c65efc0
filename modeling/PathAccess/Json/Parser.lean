import PathAccess.Json.Basic
import PathAccess.Number.Numeral
import PathAccess.Text.Blank
/-!
# Reading JSON

A reader for the standard grammar. Blanks are space, tab, line feed and carriage return; a string
holds no control character below U+0020 and no lone surrogate; nothing may follow the value; and
arrays and objects nest to a limit that the caller names, 127 levels by default.

The reader works on the rest of the text. Each call spends one unit of fuel, and `parseWithin?`
supplies enough for any text of its length.
-/

namespace PathAccess.Json

/-- Skips the blanks that JSON allows between tokens. -/
def skipBlanks (cs : List Char) : List Char :=
  cs.dropWhile Text.isLayout

/-! ## Strings -/

/-- The value of a hexadecimal digit. -/
def hexValue? (c : Char) : Option Nat :=
  if '0' ≤ c ∧ c ≤ '9' then some (c.toNat - '0'.toNat)
  else if 'a' ≤ c ∧ c ≤ 'f' then some (c.toNat - 'a'.toNat + 10)
  else if 'A' ≤ c ∧ c ≤ 'F' then some (c.toNat - 'A'.toNat + 10)
  else none

/-- The code unit that four hexadecimal digits name, and what follows them. -/
def codeUnit? : List Char → Option (Nat × List Char)
  | a :: b :: c :: d :: rest => do
    return ((((← hexValue? a) * 16 + (← hexValue? b)) * 16 + (← hexValue? c)) * 16
      + (← hexValue? d), rest)
  | _ => none

/-- The character that the digits after `\u` name. A high surrogate needs the escape of a low one
behind it, and the two name one character. -/
def unicodeEscape? (cs : List Char) : Option (Char × List Char) := do
  let (unit, rest) ← codeUnit? cs
  if 0xDC00 ≤ unit ∧ unit ≤ 0xDFFF then none
  else if 0xD800 ≤ unit ∧ unit ≤ 0xDBFF then
    match rest with
    | '\\' :: 'u' :: more =>
      let (low, rest) ← codeUnit? more
      if 0xDC00 ≤ low ∧ low ≤ 0xDFFF then
        return (Char.ofNat (0x10000 + (unit - 0xD800) * 0x400 + (low - 0xDC00)), rest)
      else none
    | _ => none
  else return (Char.ofNat unit, rest)

/-- The character that an escape without digits names. -/
def simpleEscape? : Char → Option Char
  | '"' => some '"'
  | '\\' => some '\\'
  | '/' => some '/'
  | 'b' => some '\x08'
  | 'f' => some '\x0c'
  | 'n' => some '\n'
  | 'r' => some '\r'
  | 't' => some '\t'
  | _ => none

/-- The characters of a string after its opening quote, and what follows its closing quote. -/
def stringBody? : (fuel : Nat) → List Char → Option (List Char × List Char)
  | 0, _ => none
  | _, [] => none
  | _, '"' :: rest => some ([], rest)
  | fuel + 1, '\\' :: 'u' :: more => do
    let (c, rest) ← unicodeEscape? more
    let (body, rest) ← stringBody? fuel rest
    return (c :: body, rest)
  | fuel + 1, '\\' :: e :: more => do
    let c ← simpleEscape? e
    let (body, rest) ← stringBody? fuel more
    return (c :: body, rest)
  | fuel + 1, c :: more =>
    if c.toNat < 0x20 ∨ c = '\\' then none
    else do
      let (body, rest) ← stringBody? fuel more
      return (c :: body, rest)

/-! ## Values -/

/-- What follows a word at the head of a text. -/
def afterWord? : List Char → List Char → Option (List Char)
  | [], cs => some cs
  | w :: word, c :: cs => if w = c then afterWord? word cs else none
  | _ :: _, [] => none

mutual

/-- The value at the head of a text, and what follows it. -/
def value? : (fuel levels : Nat) → List Char → Option (Json × List Char)
  | 0, _, _ => none
  | fuel + 1, levels, cs =>
    match skipBlanks cs with
    | 'n' :: rest => (afterWord? "ull".toList rest).map (null, ·)
    | 't' :: rest => (afterWord? "rue".toList rest).map (bool true, ·)
    | 'f' :: rest => (afterWord? "alse".toList rest).map (bool false, ·)
    | '"' :: rest => (stringBody? fuel rest).map fun (s, rest) => (string (String.ofList s), rest)
    | '[' :: rest =>
      match levels, skipBlanks rest with
      | 0, _ => none
      | _ + 1, ']' :: rest => some (array [], rest)
      | levels + 1, rest => (items? fuel levels rest).map fun (js, rest) => (array js, rest)
    | '\x7b' :: rest =>
      match levels, skipBlanks rest with
      | 0, _ => none
      | _ + 1, '\x7d' :: rest => some (object [], rest)
      | levels + 1, rest => (entries? fuel levels rest).map fun (es, rest) => (ofEntries es, rest)
    | rest => (Numeral.readJson? rest).map fun (n, rest) => (number n, rest)

/-- The items of an array up to its closing bracket, of which there is at least one. -/
def items? : (fuel levels : Nat) → List Char → Option (List Json × List Char)
  | 0, _, _ => none
  | fuel + 1, levels, cs => do
    let (item, rest) ← value? fuel levels cs
    match skipBlanks rest with
    | ',' :: rest =>
      let (more, rest) ← items? fuel levels rest
      return (item :: more, rest)
    | ']' :: rest => return ([item], rest)
    | _ => none

/-- The entries of an object up to its closing brace, of which there is at least one. -/
def entries? : (fuel levels : Nat) → List Char → Option (List (String × Json) × List Char)
  | 0, _, _ => none
  | fuel + 1, levels, cs =>
    match skipBlanks cs with
    | '"' :: rest => do
      let (key, rest) ← stringBody? fuel rest
      match skipBlanks rest with
      | ':' :: rest =>
        let (value, rest) ← value? fuel levels rest
        let entry := (String.ofList key, value)
        match skipBlanks rest with
        | ',' :: rest =>
          let (more, rest) ← entries? fuel levels rest
          return (entry :: more, rest)
        | '\x7d' :: rest => return ([entry], rest)
        | _ => none
      | _ => none
    | _ => none

end

/-- The value that a text stands for, if its arrays and objects nest at most `levels` deep. -/
def parseWithin? (levels : Nat) (text : String) : Option Json :=
  let cs := text.toList
  match value? (2 * cs.length + 2) levels cs with
  | some (j, rest) => if (skipBlanks rest).isEmpty then some j else none
  | none => none

/-- The nesting that a text may have where the caller sets no limit. -/
def defaultLevels : Nat := 127

/-- The value that a text stands for. -/
def parse? (text : String) : Option Json :=
  parseWithin? defaultLevels text

end PathAccess.Json
