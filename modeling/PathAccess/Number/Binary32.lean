import PathAccess.Number.Basic
/-!
# Single precision

A single has 24 significant bits, and its magnitude is a whole number of `2 ^ -149`. A finite one
is held as the double of the same value, in the units of doubles; one that is too large is
infinite. Every number has a nearest single, in one rounding from its exact value.
-/

-- powers are those of the core library, also where others are in scope
attribute [local instance (2000)] instPowNat

namespace PathAccess

/-- The exponent of the last of the bits that a single of about `units` units keeps. -/
def lastBitOfSingle (units : Nat) : Nat :=
  max 925 (units.log2 - 23)

/-- The magnitude of single precision nearest to `num / den` units. -/
def roundToSingle (num den : Nat) : Nat :=
  let scale := 2 ^ lastBitOfSingle (num / den)
  roundEven num (den * scale) * scale

/-- A magnitude of single precision is one of doubles. -/
theorem roundToSingle_aligned (num den : Nat) :
    roundToSingle num den % 2 ^ lastBit (roundToSingle num den) = 0 := by
  refine aligned_mul_pow _ (Nat.le_trans (roundEven_le _ _) ?_)
  have hscale : lastBit (num / den) ≤ lastBitOfSingle (num / den) := by
    simp only [lastBit, lastBitOfSingle]
    omega
  rw [← Nat.div_div_eq_div_mul]
  exact Nat.lt_of_le_of_lt
    (Nat.div_le_div_left (Nat.pow_le_pow_right (by decide) hscale) (Nat.two_pow_pos _))
    (div_pow_lastBit_lt _)

/-- A number of single precision. -/
inductive Binary32 where
  | finite (d : Binary64)
  | infinite (negative : Bool)
deriving DecidableEq

namespace Binary32

/-- The single nearest to `±num / den` units of doubles. -/
def round (negative : Bool) (num den : Nat) : Binary32 :=
  if h : (roundToSingle num den).log2 < 1202 then
    .finite ⟨negative, roundToSingle num den, roundToSingle_aligned num den,
      Nat.lt_trans h (by decide)⟩
  else .infinite negative

end Binary32

namespace Number

/-- The single nearest to a number. -/
def nearestSingle : Number → Binary32
  | whole n => .round (n.value < 0) (n.value.natAbs * unitsInOne) 1
  | float d => .round d.negative d.units 1

end Number

end PathAccess
