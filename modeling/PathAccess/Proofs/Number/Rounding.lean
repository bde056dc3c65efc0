import PathAccess.Number.Basic
/-!
# Rounding keeps the order

A larger magnitude never rounds to a smaller one, and so the double
nearest to a whole number grows with it. Where two magnitudes keep the
same last bit this is the order of quotients; where they do not, a power
of two stands between them that both roundings leave on its side.
-/

-- powers are those of the core library, also where others are in scope
attribute [local instance (2000)] instPowNat

namespace PathAccess

/-! ## Whole quotients -/

theorem le_roundEven (num den : Nat) : num / den ≤ roundEven num den := by
  simp only [roundEven]
  repeat' split
  all_goals omega

/-- A bound that is a whole number stays one. -/
theorem roundEven_le_of_le_mul {num den m : Nat} (hden : 0 < den) (h : num ≤ m * den) :
    roundEven num den ≤ m := by
  have hlow : num / den ≤ m := Nat.div_le_of_le_mul (by rwa [Nat.mul_comm])
  rcases Nat.lt_or_eq_of_le hlow with hlt | rfl
  · exact Nat.le_trans (roundEven_le num den) hlt
  · have hexact := Nat.div_add_mod num den
    rw [Nat.mul_comm] at hexact
    have hrest : num % den = 0 := by omega
    simp [roundEven, hrest, hden]

/-- **Rounding a quotient keeps the order.** -/
theorem roundEven_mono {num num' den : Nat} (h : num ≤ num') :
    roundEven num den ≤ roundEven num' den := by
  have hlow : num / den ≤ num' / den := Nat.div_le_div_right h
  rcases Nat.lt_or_eq_of_le hlow with hlt | heq
  · calc roundEven num den ≤ num / den + 1 := roundEven_le num den
      _ ≤ num' / den := hlt
      _ ≤ roundEven num' den := le_roundEven num' den
  · -- with equal quotients the remainders decide, and they are in order
    have h₁ := Nat.div_add_mod num den
    have h₂ := Nat.div_add_mod num' den
    rw [heq] at h₁
    have hrest : num % den ≤ num' % den := by omega
    simp only [roundEven, heq]
    repeat' split
    all_goals omega

/-! ## Magnitudes -/

/-- A magnitude with bits below its last one reaches the power of two
that its last bit is 52 below. -/
theorem pow_le_of_lastBit_pos {units : Nat} (h : 0 < lastBit units) :
    2 ^ (lastBit units + 52) ≤ units := by
  have hlog : lastBit units + 52 = units.log2 := by
    simp only [lastBit] at h ⊢
    omega
  have hne : units ≠ 0 := by
    rintro rfl
    simp [lastBit] at h
  rw [hlog]
  exact Nat.log2_self_le hne

/-- And one with a smaller last bit does not. -/
theorem lt_pow_of_lastBit_lt {units e : Nat} (h : lastBit units < e) : units < 2 ^ (e + 52) := by
  refine Nat.lt_of_lt_of_le Nat.lt_log2_self (Nat.pow_le_pow_right (by decide) ?_)
  simp only [lastBit] at h
  omega

theorem lastBit_mono {units units' : Nat} (h : units ≤ units') : lastBit units ≤ lastBit units' := by
  rcases Nat.lt_or_ge (lastBit units') (lastBit units) with hlt | hge
  · have hlow : 2 ^ (lastBit units + 52) ≤ units := pow_le_of_lastBit_pos (by omega)
    have hhigh := lt_pow_of_lastBit_lt hlt
    omega
  · exact hge

/-- A magnitude below a power of two past its last bit rounds to at most
that power. -/
theorem roundUnits_le_pow {num den e : Nat} (hden : 0 < den) (h : lastBit (num / den) ≤ e)
    (hlt : num / den < 2 ^ e) : roundUnits num den ≤ 2 ^ e := by
  have hsplit : 2 ^ (e - lastBit (num / den)) * 2 ^ lastBit (num / den) = 2 ^ e := by
    rw [← Nat.pow_add, Nat.sub_add_cancel h]
  have hnum : num ≤ 2 ^ (e - lastBit (num / den)) * (den * 2 ^ lastBit (num / den)) := by
    rw [Nat.mul_left_comm, hsplit, Nat.mul_comm]
    exact Nat.le_of_lt ((Nat.div_lt_iff_lt_mul hden).1 hlt)
  rw [← hsplit]
  exact Nat.mul_le_mul_right _
    (roundEven_le_of_le_mul (Nat.mul_pos hden (Nat.two_pow_pos _)) hnum)

/-- A magnitude with bits below its last one does not round below the
power of two that it has reached. -/
theorem pow_le_roundUnits {num den : Nat} (h : 0 < lastBit (num / den)) :
    2 ^ (lastBit (num / den) + 52) ≤ roundUnits num den := by
  rw [Nat.pow_add, Nat.mul_comm]
  refine Nat.mul_le_mul_right _ (Nat.le_trans ?_ (le_roundEven _ _))
  rw [← Nat.div_div_eq_div_mul, Nat.le_div_iff_mul_le (Nat.two_pow_pos _), ← Nat.pow_add,
    Nat.add_comm]
  exact pow_le_of_lastBit_pos h

/-- **Rounding a magnitude keeps the order.** -/
theorem roundUnits_mono {num num' den : Nat} (hden : 0 < den) (h : num ≤ num') :
    roundUnits num den ≤ roundUnits num' den := by
  have hbit := lastBit_mono (Nat.div_le_div_right (c := den) h)
  rcases Nat.lt_or_eq_of_le hbit with hlt | heq
  · calc roundUnits num den ≤ 2 ^ (lastBit (num' / den) + 52) :=
          roundUnits_le_pow hden (by omega) (lt_pow_of_lastBit_lt hlt)
      _ ≤ roundUnits num' den := pow_le_roundUnits (by omega)
  · simp only [roundUnits, heq]
    exact Nat.mul_le_mul_right _ (roundEven_mono h)

/-! ## Whole numbers -/

/-- **The nearest double grows with the whole number.** -/
theorem Whole.nearest_mono {a b : Whole} (h : a.value ≤ b.value) :
    a.nearest.scaled ≤ b.nearest.scaled := by
  have hround : ∀ m n : Nat, m ≤ n →
      roundUnits (m * unitsInOne) 1 ≤ roundUnits (n * unitsInOne) 1 := fun m n hmn =>
    roundUnits_mono Nat.one_pos (Nat.mul_le_mul_right _ hmn)
  simp only [nearest, Binary64.scaled, decide_eq_true_eq]
  split <;> split
  · have := hround b.value.natAbs a.value.natAbs (by omega)
    omega
  · omega
  · omega
  · have := hround a.value.natAbs b.value.natAbs (by omega)
    omega

end PathAccess
