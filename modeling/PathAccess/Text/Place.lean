import PathAccess.Text.Blank
import PathAccess.Text.Digits
/-!
# Places — where in a text something went wrong

A reason may end by naming a place, as in `no such name at line 3 column 7`. The place is not part
of what is wrong: it is read into its two numbers and written behind the reason anew, so zeros in
front of a number are not kept. Lines are counted from one, and a place on line zero stands for
no place at all: nothing is written for it. Only the last place of a reason is read, and only at
its very end.
-/

-- powers are those of the core library, also where others are in scope
attribute [local instance (2000)] instPowNat

namespace PathAccess.Text

/-- A place in a text. On line zero it stands for none. -/
structure Place where
  line : Nat
  column : Nat
deriving DecidableEq

namespace Place

/-- The place as it is written behind a reason. -/
def display (p : Place) : String :=
  if p.line = 0 then ""
  else " at line " ++ toString p.line ++ " column " ++ toString p.column

/-- The number at the end of a text, if it has digits and fits 64 bits, and what stands before. -/
def numberAtEnd? (cs : List Char) : Option (List Char × Nat) :=
  let digits := (cs.reverse.takeWhile Char.isDigit).reverse
  if digits.isEmpty ∨ 2 ^ (64 : Nat) ≤ digitsValue digits then none
  else some (dropEndWhile Char.isDigit cs, digitsValue digits)

/-- The place at the end of a reason, and the reason before it. -/
def atEnd? (cs : List Char) : Option (List Char × Place) := do
  let (before, column) ← numberAtEnd? cs
  let before ← " column ".toList.isSuffixOf? before
  let (before, line) ← numberAtEnd? before
  let reason ← " at line ".toList.isSuffixOf? before
  return (reason, ⟨line, column⟩)

end Place

/-- A reason whose place, if it ends with one, is written anew. -/
def settlePlace (reason : String) : String :=
  match Place.atEnd? reason.toList with
  | some (before, place) => String.ofList before ++ place.display
  | none => reason

end PathAccess.Text
