import PathAccess.Path.Element
import PathAccess.Text.Blank
import PathAccess.Text.Digits
/-!
# Reading paths

A path such as `$.orders[?(@.id=='A')].total` is read from left to right into elements. Every part
is tried at the head of the text and gives back what follows it; a part that does not fit is left
to the next choice, and a choice that fits is final. Blanks are dropped at both ends of the path,
and layout may stand inside a bracket, around its content.
-/

-- powers are those of the core library, also where others are in scope
attribute [local instance (2000)] instPowNat

namespace PathAccess.Path

/-- Why a path could not be read. -/
inductive ReadError where
  /-- Nothing but blanks. -/
  | empty
  /-- The path as written, and the rest that no part fits. -/
  | unread (path rest : String)
deriving DecidableEq

/-! ## Names and repetition -/

/-- The characters of a name in dotted form: all but the dot and the two brackets. -/
def isNameChar (c : Char) : Bool :=
  c != '.' && c != '[' && c != ']'

/-- A name in dotted form, of at least one character. -/
def name? (cs : List Char) : Option (String × List Char) :=
  let name := cs.takeWhile isNameChar
  if name.isEmpty then none else some (String.ofList name, cs.dropWhile isNameChar)

/-- What follows a character at the head of a text. -/
def after? (c : Char) : List Char → Option (List Char)
  | [] => none
  | d :: cs => if d = c then some cs else none

/-- Skips layout. -/
def skipLayout (cs : List Char) : List Char :=
  cs.dropWhile Text.isLayout

section

variable {α : Type} (part : List Char → Option (α × List Char))

/-- Reads as many parts as fit, one behind the other. A part that takes nothing is not taken. -/
def many (cs : List Char) : List α × List Char :=
  match part cs with
  | none => ([], cs)
  | some (a, rest) =>
    if rest.length < cs.length then
      let (more, rest) := many rest
      (a :: more, rest)
    else ([], cs)
termination_by cs.length

/-- A part that may be missing. -/
def optional (cs : List Char) : Option α × List Char :=
  match part cs with
  | some (a, rest) => (some a, rest)
  | none => (none, cs)

/-- A part with layout around it. -/
def spaced (cs : List Char) : Option (α × List Char) :=
  (part (skipLayout cs)).map fun (a, rest) => (a, skipLayout rest)

/-- A comma with layout around it, and a part behind it. -/
def afterComma (cs : List Char) : Option (α × List Char) := do
  let rest ← after? ',' (skipLayout cs)
  part (skipLayout rest)

/-- A list of at least one part, with commas between. A comma without a part behind it is not
taken. -/
def commaList (cs : List Char) : Option ((α × List α) × List Char) := do
  let (first, rest) ← part cs
  let (more, rest) := many (afterComma part) rest
  return ((first, more), rest)

end

/-! ## Contents of a bracket -/

/-- The text up to the parenthesis that closes an open one, and what follows that parenthesis.
Inner parentheses come in pairs, and between two quotes of one kind nothing counts. -/
def balanced :
    (depth : Nat) → (quote : Option Char) → List Char → Option (List Char × List Char)
  | _, _, [] => none
  | depth, some q, c :: cs =>
    (balanced depth (if c = q then none else some q) cs).map fun (text, rest) => (c :: text, rest)
  | depth, none, c :: cs =>
    if c = ')' ∧ depth = 0 then some ([], cs)
    else
      -- The depth cannot fall below zero here: a closing parenthesis at zero ends the text.
      let depth := if c = '(' then depth + 1 else if c = ')' then depth - 1 else depth
      let quote := if c = '\'' ∨ c = '"' then some c else none
      (balanced depth quote cs).map fun (text, rest) => (c :: text, rest)

/-- A text in parentheses, without the blanks at its ends. -/
def enclosed (cs : List Char) : Option (String × List Char) := do
  let rest ← after? '(' cs
  let (text, rest) ← balanced 0 none rest
  return (String.ofList (Text.trim text), rest)

/-- A filter: a question mark and a text in parentheses. -/
def filter? (cs : List Char) : Option (Element × List Char) := do
  let rest ← after? '?' cs
  let (text, rest) ← enclosed rest
  return (.filter text, rest)

/-- A script: a text in parentheses. -/
def script? (cs : List Char) : Option (Element × List Char) := do
  let (text, rest) ← enclosed cs
  return (.expression text, rest)

/-- The star that stands for any index. -/
def anyIndex? (cs : List Char) : Option (Element × List Char) := do
  let rest ← after? '*' cs
  return (.anyArrayIndex, rest)

/-- A name between two quotes of one kind, which it does not hold itself. -/
def quotedName? : List Char → Option (String × List Char)
  | [] => none
  | q :: cs =>
    if q = '\'' ∨ q = '"' then
      (after? q (cs.dropWhile (· != q))).map fun rest =>
        (String.ofList (cs.takeWhile (· != q)), rest)
    else none

/-- Quoted names: one is a property, several are a list. -/
def names? (cs : List Char) : Option (Element × List Char) := do
  let ((first, more), rest) ← commaList quotedName? cs
  return (if more.isEmpty then .property first else .propertyList (first :: more), rest)

/-- Digits as an index of the given sign, if it fits a signed 64-bit integer. -/
def digits? (negative : Bool) (cs : List Char) : Option (Int × List Char) :=
  let digits := cs.takeWhile Char.isDigit
  let value : Int := if negative then -(Text.digitsValue digits : Int) else Text.digitsValue digits
  if digits.isEmpty ∨ value < -2 ^ (63 : Nat) ∨ 2 ^ (63 : Nat) ≤ value then none
  else some (value, cs.dropWhile Char.isDigit)

/-- An index: an optional sign and digits. -/
def index? : List Char → Option (Int × List Char)
  | '-' :: cs => digits? true cs
  | '+' :: cs => digits? false cs
  | cs => digits? false cs

/-- The step of a slice: a colon, behind which an index may be missing. -/
def step? (cs : List Char) : Option (Option Int × List Char) := do
  let rest ← after? ':' cs
  return optional (spaced index?) rest

/-- A slice: two bounds and a step, each of which may be missing, with colons between. -/
def slice? (cs : List Char) : Option (Element × List Char) := do
  let (start, rest) := optional (spaced index?) cs
  let rest ← after? ':' rest
  let (stop, rest) := optional (spaced index?) rest
  let (step, rest) := optional step? rest
  return (.arraySlice start stop step.join, rest)

/-- Indexes: one is a position, several are a list. -/
def indexes? (cs : List Char) : Option (Element × List Char) := do
  let ((first, more), rest) ← commaList index? cs
  return (if more.isEmpty then .arrayIndex first else .arrayIndexList (first :: more), rest)

/-- The content of a bracket. A slice is tried before indexes, which would stop at its colon. -/
def bracketBody? (cs : List Char) : Option (Element × List Char) :=
  filter? cs <|> script? cs <|> anyIndex? cs <|> names? cs <|> slice? cs <|> indexes? cs

/-- A bracket with its content. -/
def bracket? (cs : List Char) : Option (Element × List Char) := do
  let rest ← after? '[' cs
  let (e, rest) ← spaced bracketBody? rest
  let rest ← after? ']' rest
  return (e, rest)

/-! ## Segments -/

/-- What may follow a dot: a star for any property, or a name. -/
def member? (cs : List Char) : Option (Element × List Char) :=
  ((after? '*' cs).map fun rest => (.anyProperty, rest)) <|>
    (name? cs).map fun (name, rest) => (.property name, rest)

/-- A descent: two dots and the member or bracket to look for. -/
def descent? (cs : List Char) : Option (List Element × List Char) := do
  let rest ← after? '.' cs
  let rest ← after? '.' rest
  let (target, rest) ← member? rest <|> bracket? rest
  return ([.recursiveDescent, target], rest)

/-- A dot and a member. -/
def dotted? (cs : List Char) : Option (List Element × List Char) := do
  let rest ← after? '.' cs
  let (e, rest) ← member? rest
  return ([e], rest)

/-- A bracket as a segment. -/
def bracketed? (cs : List Char) : Option (List Element × List Char) := do
  let (e, rest) ← bracket? cs
  return ([e], rest)

/-- One segment of a path. A descent is tried before a single dot. -/
def segment? (cs : List Char) : Option (List Element × List Char) :=
  descent? cs <|> dotted? cs <|> bracketed? cs

/-- As many segments as fit, and the rest. -/
def segments (cs : List Char) : List Element × List Char :=
  let (parts, rest) := many segment? cs
  (parts.flatten, rest)

/-! ## Paths -/

/-- The elements of a text without blanks at its ends, and the rest that no part fits. The root
sign and a first name without a dot may both be missing. -/
def elements (cs : List Char) : List Element × List Char :=
  let cs := (after? '$' cs).getD cs
  let (head, rest) := optional name? cs
  let (es, rest) := segments rest
  (.root :: (head.map .property).toList ++ es, rest)

/-- The elements of a path. -/
def read (path : String) : Except ReadError (List Element) :=
  let cs := Text.trim path.toList
  if cs.isEmpty then .error .empty
  else match elements cs with
    | (es, []) => .ok es
    | (_, rest) => .error (.unread path (String.ofList rest))

/-- A path is read when its elements leave nothing of it. -/
theorem read_eq_ok_iff {path : String} {es : List Element} :
    read path = .ok es ↔
      Text.trim path.toList ≠ [] ∧ elements (Text.trim path.toList) = (es, []) := by
  simp only [read, List.isEmpty_iff]
  split
  · simp_all
  · split <;> simp_all

/-- A path is empty when it is nothing but blanks. -/
theorem read_eq_empty_iff {path : String} :
    read path = .error .empty ↔ Text.trim path.toList = [] := by
  simp only [read, List.isEmpty_iff]
  split
  · simp_all
  · split <;> simp_all

/-- The text of a reading error. -/
def ReadError.message : ReadError → String
  | empty => "Empty path"
  | unread path rest =>
    "JPath parse error in '" ++ path ++ "': Parser did not consume all input. Remainder: '" ++
      rest ++ "'"

end PathAccess.Path
