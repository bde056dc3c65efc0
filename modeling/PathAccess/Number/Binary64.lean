/-!
# Finite doubles, held exactly

A finite double is a sign and a magnitude. The magnitude is counted in units of `2 ^ -1074`, the
smallest positive double, so every finite double is a whole number of units and comparing two of
them is comparing integers. A magnitude has 53 significant bits: past `2 ^ 53` units it is a
multiple of the power of two that `lastBit` gives. Arithmetic is exact on the units, and one
rounding step, to the nearest magnitude and to the even one of two equally near, follows it.
-/

-- powers are those of the core library, also where others are in scope
attribute [local instance (2000)] instPowNat

namespace PathAccess

/-- The exponent of the last of the 53 bits that a magnitude of `units` units keeps. -/
def lastBit (units : Nat) : Nat :=
  units.log2 - 52

/-- A finite double: its sign and its magnitude in units of `2 ^ -1074`. -/
structure Binary64 where
  negative : Bool
  units : Nat
  aligned : units % 2 ^ lastBit units = 0
  bounded : units.log2 < 2098
deriving DecidableEq

/-! ## Rounding -/

/-- The whole number nearest to `num / den`, the even one of two equally near. -/
def roundEven (num den : Nat) : Nat :=
  let low := num / den
  let rest := num % den
  if 2 * rest < den then low
  else if den < 2 * rest then low + 1
  else if low % 2 = 0 then low
  else low + 1

/-- The magnitude nearest to `num / den` units. -/
def roundUnits (num den : Nat) : Nat :=
  let scale := 2 ^ lastBit (num / den)
  roundEven num (den * scale) * scale

theorem roundEven_le (num den : Nat) : roundEven num den ≤ num / den + 1 := by
  simp only [roundEven]
  repeat' split
  all_goals omega

theorem div_pow_lastBit_lt (units : Nat) : units / 2 ^ lastBit units < 2 ^ (53 : Nat) := by
  rw [Nat.div_lt_iff_lt_mul (Nat.two_pow_pos _), ← Nat.pow_add]
  refine Nat.lt_of_lt_of_le Nat.lt_log2_self (Nat.pow_le_pow_right (by decide) ?_)
  simp only [lastBit]
  omega

theorem dvd_of_lastBit_le {units e : Nat} (h : lastBit units ≤ e) (hd : 2 ^ e ∣ units) :
    units % 2 ^ lastBit units = 0 :=
  Nat.mod_eq_zero_of_dvd (Nat.dvd_trans (Nat.pow_dvd_pow 2 h) hd)

/-- A magnitude of at most 53 bits, shifted, is aligned. -/
theorem aligned_mul_pow {m : Nat} (e : Nat) (hm : m ≤ 2 ^ (53 : Nat)) :
    (m * 2 ^ e) % 2 ^ lastBit (m * 2 ^ e) = 0 := by
  rcases Nat.eq_zero_or_pos m with rfl | hpos
  · simp
  have hne : m * 2 ^ e ≠ 0 := Nat.ne_of_gt (Nat.mul_pos hpos (Nat.two_pow_pos e))
  rcases Nat.lt_or_eq_of_le hm with hlt | rfl
  · refine dvd_of_lastBit_le ?_ (Nat.dvd_mul_left _ m)
    have : (m * 2 ^ e).log2 < 53 + e := by
      rw [Nat.log2_lt hne, Nat.pow_add]
      exact Nat.mul_lt_mul_of_pos_right hlt (Nat.two_pow_pos e)
    simp only [lastBit]
    omega
  · rw [← Nat.pow_add]
    refine dvd_of_lastBit_le ?_ (Nat.dvd_refl _)
    simp only [lastBit, Nat.log2_two_pow]
    omega

/-- Rounding gives an aligned magnitude. -/
theorem roundUnits_aligned (num den : Nat) :
    roundUnits num den % 2 ^ lastBit (roundUnits num den) = 0 := by
  refine aligned_mul_pow _ (Nat.le_trans (roundEven_le _ _) ?_)
  rw [← Nat.div_div_eq_div_mul]
  exact div_pow_lastBit_lt _

/-- Rounding at most doubles a magnitude, the step up from nothing apart. -/
theorem roundUnits_le (num den : Nat) : roundUnits num den ≤ 2 * (num / den) + 1 := by
  have hstep : 2 ^ lastBit (num / den) ≤ num / den + 1 := by
    rcases Nat.eq_zero_or_pos (num / den) with h | h
    · simp [h, lastBit]
    · refine Nat.le_trans (Nat.pow_le_pow_right (by decide) (Nat.sub_le _ 52)) ?_
      exact Nat.le_succ_of_le (Nat.log2_self_le (Nat.ne_of_gt h))
  have hround := Nat.mul_le_mul_right (2 ^ lastBit (num / den))
    (roundEven_le num (den * 2 ^ lastBit (num / den)))
  rw [← Nat.div_div_eq_div_mul, Nat.add_mul, Nat.one_mul] at hround
  have hlow := Nat.div_mul_le_self (num / den) (2 ^ lastBit (num / den))
  simp only [roundUnits]
  omega

/-- Rounding adds at most one bit to a magnitude, and room for the step up from nothing. -/
theorem log2_roundUnits_lt {num den k : Nat} (h : num / den < 2 ^ k) :
    (roundUnits num den).log2 < k + 2 := by
  rcases Nat.eq_zero_or_pos (roundUnits num den) with hzero | hpos
  · rw [hzero, Nat.log2_zero]
    omega
  · rw [Nat.log2_lt (Nat.ne_of_gt hpos), Nat.pow_add]
    have := roundUnits_le num den
    omega

/-- The exponent of the number of units in one. -/
def bitsInOne : Nat := 1074

/-- The number of units in one. -/
def unitsInOne : Nat := 2 ^ bitsInOne

theorem unitsInOne_pos : 0 < unitsInOne := by
  rw [unitsInOne]
  exact Nat.two_pow_pos bitsInOne

namespace Binary64

/-- The double of a sign and a rounded number of units, unless it is too large to be finite. -/
def round? (negative : Bool) (num den : Nat) : Option Binary64 :=
  if h : (roundUnits num den).log2 < 2098 then
    some ⟨negative, roundUnits num den, roundUnits_aligned num den, h⟩
  else none

/-- The double nearest to `±num / den`, unless it is too large to be finite. -/
def ofRatio? (negative : Bool) (num den : Nat) : Option Binary64 :=
  round? negative (num * unitsInOne) den

/-- The positive zero. -/
def zero : Binary64 :=
  ⟨false, 0, by decide, by decide⟩

/-- The double with its sign replaced. -/
def withSign (negative : Bool) (d : Binary64) : Binary64 :=
  { d with negative }

/-- The rounded product. -/
def mul? (a b : Binary64) : Option Binary64 :=
  round? (a.negative != b.negative) (a.units * b.units) unitsInOne

/-- The rounded quotient, for a divisor that is not zero. -/
def div? (a b : Binary64) : Option Binary64 :=
  round? (a.negative != b.negative) (a.units * unitsInOne) b.units

/-- The value as a whole number of units, in which the two zeros are one. -/
def scaled (d : Binary64) : Int :=
  if d.negative then -(d.units : Int) else d.units

end Binary64

end PathAccess
