/-!
# Decimal digits

Indexes in paths and places in reasons are written in decimal digits. A sign and the range that a
number has to keep are up to who reads it.
-/

namespace PathAccess.Text

/-- The number that decimal digits stand for. -/
def digitsValue (digits : List Char) : Nat :=
  digits.foldl (fun n c => 10 * n + (c.toNat - '0'.toNat)) 0

@[simp] theorem digitsValue_nil : digitsValue [] = 0 := rfl

/-- The last digit counts ones. -/
theorem digitsValue_append_singleton (digits : List Char) (c : Char) :
    digitsValue (digits ++ [c]) = 10 * digitsValue digits + (c.toNat - '0'.toNat) := by
  simp [digitsValue]

end PathAccess.Text
