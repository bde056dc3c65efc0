import PathAccess.Number.Binary64
/-!
# The shortest decimal that reads back

A magnitude stands for every real number that rounds to it: those between the two midpoints to
its neighbours, the midpoints included when its last bit is even. Among the decimals in that
interval the written one has the fewest digits; of two with equally few it is the nearer, and of
two equally near the even one.
-/

-- powers are those of the core library, also where others are in scope
attribute [local instance (2000)] instPowNat

namespace PathAccess

/-- The decimal `coefficient * 10 ^ exponent`. -/
structure Decimal where
  coefficient : Nat
  exponent : Int
deriving DecidableEq

namespace Binary64

/-! ## The interval that rounds to a magnitude

Bounds are counted in quarters of a unit, so that every midpoint is a whole number of them. -/

/-- The lower bound. Below a power of two the neighbours stand half as far apart. -/
def roundsFrom (units : Nat) : Nat :=
  let gap := 2 ^ lastBit units
  if units = 2 ^ (52 : Nat) * gap ∧ lastBit units ≠ 0 then 4 * units - gap else 4 * units - 2 * gap

/-- The upper bound. -/
def roundsUpTo (units : Nat) : Nat :=
  4 * units + 2 * 2 ^ lastBit units

/-- Whether the two bounds themselves round to the magnitude. -/
def ownsBounds (units : Nat) : Bool :=
  units / 2 ^ lastBit units % 2 == 0

/-- Whether `num / den` quarter units round to the magnitude. -/
def roundsTo (units num den : Nat) : Bool :=
  let low := roundsFrom units * den
  let high := roundsUpTo units * den
  if ownsBounds units then low ≤ num && num ≤ high else low < num && num < high

/-! ## The search -/

/-- The number of decimal digits of `n`. -/
def decimalLength (n : Nat) : Nat :=
  (Nat.toDigits 10 n).length

/-- The exponent of the first significant decimal digit of a positive magnitude. -/
def firstDigit (units : Nat) : Int :=
  if units < unitsInOne then -(decimalLength ((unitsInOne - 1) / units) : Int)
  else decimalLength (units / unitsInOne) - 1

/-- The point of the grid of spacing `10 ^ exponent` that the magnitude is written as, if one of
its two neighbours on the grid rounds to it. -/
def onGrid? (units : Nat) (exponent : Int) : Option Decimal :=
  let spacing := 10 ^ exponent.toNat * (4 * unitsInOne)
  let den := 10 ^ (-exponent).toNat
  let value := 4 * units * den
  let below := value / spacing
  let above := below + 1
  match roundsTo units (below * spacing) den, roundsTo units (above * spacing) den with
  | false, false => none
  | true, false => some ⟨below, exponent⟩
  | false, true => some ⟨above, exponent⟩
  -- Both read back: the nearer is meant, and the even one where the value is halfway.
  | true, true => some ⟨roundEven value spacing, exponent⟩

/-- All digits of the magnitude: a unit is `5 ^ 1074 * 10 ^ -1074`. -/
def exactDecimal (units : Nat) : Decimal :=
  ⟨units * 5 ^ (1074 : Nat), -1074⟩

/-- The decimal that a positive magnitude is written as. Seventeen digits always reach a point
that reads back. -/
def shortest (units : Nat) : Decimal :=
  ((List.range 17).findSome? fun (n : Nat) => onGrid? units (firstDigit units - n)).getD
    (exactDecimal units)

end Binary64

/-! ## The written form -/

namespace Decimal

/-- The significant digits, without the zeros at their end. -/
def digits (d : Decimal) : List Char :=
  ((Nat.toDigits 10 d.coefficient).reverse.dropWhile (· == '0')).reverse

/-- The decimal exponent of the first digit. -/
def firstDigit (d : Decimal) : Int :=
  d.exponent + Binary64.decimalLength d.coefficient - 1

/-- Digits with a point after the one of exponent zero, and at least one digit behind it. -/
def positional (digits : List Char) (first : Int) : List Char :=
  if first < 0 then
    ['0', '.'] ++ List.replicate (-first - 1).toNat '0' ++ digits
  else
    let whole := (first + 1).toNat
    let fraction := digits.drop whole
    (digits ++ List.replicate (whole - digits.length) '0').take whole ++
      '.' :: if fraction.isEmpty then ['0'] else fraction

/-- Digits with a point after the first of several, and the exponent with its sign. -/
def scientific (digits : List Char) (first : Int) : List Char :=
  let fraction := digits.drop 1
  digits.take 1 ++ (if fraction.isEmpty then [] else '.' :: fraction) ++
    'e' :: (if first < 0 then '-' else '+') :: Nat.toDigits 10 first.natAbs

/-- The smallest and the largest decimal exponent that are written positionally. -/
def positionalRange : Int × Int := (-5, 15)

/-- The written form of a positive decimal. -/
def written (d : Decimal) : List Char :=
  let first := d.firstDigit
  if positionalRange.1 ≤ first ∧ first ≤ positionalRange.2 then positional d.digits first
  else scientific d.digits first

end Decimal

/-- The written form of a double. A zero keeps its sign. -/
def Binary64.written (d : Binary64) : List Char :=
  (if d.negative then ['-'] else []) ++
    if d.units = 0 then ['0', '.', '0'] else (shortest d.units).written

end PathAccess
