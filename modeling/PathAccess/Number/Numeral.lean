import PathAccess.Number.Basic
/-!
# Numerals — numbers as they are written

A numeral is a sign, digits, an optional fraction and an optional exponent. Its value is taken in
one of two ways. `nearest?` rounds the written decimal once, to the nearest double. `number?` is
the reading of numbers in JSON text: a numeral that is a whole number in range stays one, and any
other is the double that its leading digits, as many as fit 64 bits, give when a power of ten
scales them. Each scaling rounds, so a long numeral may miss the nearest double by a last bit.
Both refuse a value too large for a double.
-/

-- powers are those of the core library, also where others are in scope
attribute [local instance (2000)] instPowNat

namespace PathAccess

/-- A decimal numeral, its digits given by their values. -/
structure Numeral where
  negative : Bool
  whole : List Nat
  fraction : Option (List Nat)
  exponent : Option Int
deriving DecidableEq

namespace Numeral

/-! ## Scanning -/

/-- The digits at the head of a text, and what follows them. -/
def digits (cs : List Char) : List Nat × List Char :=
  ((cs.takeWhile Char.isDigit).map fun c => c.toNat - '0'.toNat, cs.dropWhile Char.isDigit)

/-- The number that digits stand for. -/
def valueOf (ds : List Nat) : Nat :=
  ds.foldl (fun n d => 10 * n + d) 0

/-- A point and the digits behind it, of which there may be none. -/
def scanFraction : List Char → Option (List Nat) × List Char
  | '.' :: cs => let (ds, rest) := digits cs; (some ds, rest)
  | cs => (none, cs)

/-- An optional sign: whether it is a minus, and what follows it. -/
def scanSign : List Char → Bool × List Char
  | '-' :: cs => (true, cs)
  | '+' :: cs => (false, cs)
  | cs => (false, cs)

/-- The exponent at the head of a text, if there is one. It fails on an exponent without digits. -/
def scanExponent (cs : List Char) : Option (Option Int × List Char) :=
  match cs with
  | [] => some (none, [])
  | c :: tail =>
    if c = 'e' ∨ c = 'E' then
      let (negative, body) := scanSign tail
      let (ds, rest) := digits body
      if ds.isEmpty then none
      else some (some (if negative then -(valueOf ds : Int) else valueOf ds), rest)
    else some (none, cs)

/-- The numeral at the head of an unsigned text, and what follows it. -/
def scan (negative : Bool) (cs : List Char) : Option (Numeral × List Char) :=
  let (whole, cs) := digits cs
  let (fraction, cs) := scanFraction cs
  (scanExponent cs).map fun (exponent, cs) => (⟨negative, whole, fraction, exponent⟩, cs)

/-! ## The nearest double -/

/-- The double nearest to the written decimal. A number of digits that leaves no doubt is settled
without computing the power of ten. -/
def nearest? (n : Numeral) : Option Binary64 :=
  let fraction := n.fraction.getD []
  let coefficient := valueOf (n.whole ++ fraction)
  let scale := n.exponent.getD 0 - fraction.length
  let size := Binary64.decimalLength coefficient + scale
  if coefficient = 0 ∨ size < -330 then some (Binary64.zero.withSign n.negative)
  else if 310 < size then none
  else Binary64.ofRatio? n.negative (coefficient * 10 ^ scale.toNat) (10 ^ (-scale).toNat)

/-- A literal that stands for a finite double: an optional sign, at least one digit, a point
anywhere among the digits, and an optional exponent. -/
def readFloat? (cs : List Char) : Option Binary64 :=
  let (negative, body) := scanSign cs
  match scan negative body with
  | some (n, []) => if (n.whole ++ n.fraction.getD []).isEmpty then none else n.nearest?
  | _ => none

/-! ## Whole numbers -/

/-- A literal that stands for a whole number in range: an optional sign and digits. -/
def readWhole? (cs : List Char) : Option Whole :=
  let (negative, body) := scanSign cs
  match digits body with
  | ([], _) => none
  | (ds, []) => Whole.ofInt? (if negative then -(valueOf ds : Int) else valueOf ds)
  | _ => none

/-! ## Numbers in JSON text -/

/-- Digits gathered into 64 bits: the number they form, and how many could not be taken. -/
structure Gathered where
  value : Nat
  dropped : Nat

/-- Takes one more digit while the number fits 64 bits, and none after the first that does not. -/
def Gathered.take (g : Gathered) (digit : Nat) : Gathered :=
  if g.dropped = 0 ∧ g.value * 10 + digit < 2 ^ (64 : Nat) then { g with value := g.value * 10 + digit }
  else { g with dropped := g.dropped + 1 }

/-- The digits before and behind the point that fit 64 bits, and their scale. Digits that do not
fit count in the scale before the point and are lost behind it. -/
def significand (n : Numeral) : Nat × Int :=
  let whole := n.whole.foldl Gathered.take ⟨0, 0⟩
  -- A digit behind the point may fit again after one before it did not.
  let fraction := n.fraction.getD []
  let all := fraction.foldl Gathered.take ⟨whole.value, 0⟩
  (all.value, whole.dropped - (fraction.length - all.dropped : Nat))

/-- The power of ten as a double, for exponents up to 308. -/
def powerOfTen? (exponent : Nat) : Option Binary64 :=
  Binary64.ofRatio? false (10 ^ exponent) 1

/-- A double times a power of ten. Below the smallest power, it is first divided by `10 ^ 308`;
two such divisions leave nothing of a 64-bit number. -/
def scale? (d : Binary64) (exponent : Int) : Option Binary64 :=
  if d.units = 0 ∨ exponent < -616 then some Binary64.zero
  else if 308 < exponent then none
  else if 0 ≤ exponent then (powerOfTen? exponent.toNat).bind d.mul?
  else if -308 ≤ exponent then (powerOfTen? (-exponent).toNat).bind d.div?
  else do
    let reduced ← (powerOfTen? 308).bind d.div?
    (powerOfTen? (-exponent - 308).toNat).bind reduced.div?

/-- The double that a numeral with a point, an exponent or too many digits stands for. -/
def float? (n : Numeral) : Option Binary64 := do
  let (value, places) := n.significand
  let d ← Binary64.ofRatio? false value 1
  let scaled ← scale? d (places + n.exponent.getD 0)
  return scaled.withSign n.negative

/-- The whole number that a numeral stands for, if it has the form of one and is in range. A zero
with a sign has not, for only a double can keep it. -/
def whole? (n : Numeral) : Option Whole :=
  if n.fraction.isSome ∨ n.exponent.isSome then none
  else if n.negative then
    if valueOf n.whole = 0 then none else Whole.ofInt? (-(valueOf n.whole : Int))
  else Whole.ofInt? (valueOf n.whole)

/-- The number that a numeral in JSON text stands for. -/
def number? (n : Numeral) : Option Number :=
  match n.whole? with
  | some w => some (.whole w)
  | none => n.float?.map .float

/-- Whether a numeral has the form that JSON allows: no needless zero in front, and digits on both
sides of a point. -/
def isJson (n : Numeral) : Bool :=
  (match n.whole with
    | [] => false
    | [_] => true
    | first :: _ => first != 0) && n.fraction != some []

/-- The number at the head of a JSON text, and what follows it. -/
def readJson? (cs : List Char) : Option (Number × List Char) := do
  let (negative, body) := match cs with
    | '-' :: body => (true, body)
    | _ => (false, cs)
  let (n, rest) ← scan negative body
  if n.isJson then return (← n.number?, rest) else none

end Numeral

end PathAccess
