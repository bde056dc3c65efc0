import PathAccess.Number.Shortest
/-!
# Numbers

A number is a whole number in the joint range of the signed and the unsigned 64-bit integers, or
a finite double. Two whole numbers are compared as integers. When a double takes part, a whole
number is first rounded to the nearest double, so the comparison may take two numbers for equal
that are not. The two kinds stay apart under `same`, where `7` and `7.0` differ.
-/

-- powers are those of the core library, also where others are in scope
attribute [local instance (2000)] instPowNat

namespace PathAccess

/-- An integer that fits 64 bits, with or without a sign. -/
structure Whole where
  value : Int
  low : -2 ^ (63 : Nat) ≤ value
  high : value < 2 ^ (64 : Nat)
deriving DecidableEq

namespace Whole

/-- The integer as a whole number, if it is in range. -/
def ofInt? (n : Int) : Option Whole :=
  if h : -2 ^ (63 : Nat) ≤ n ∧ n < 2 ^ (64 : Nat) then some ⟨n, h.1, h.2⟩ else none

def zero : Whole := ⟨0, by decide, by decide⟩

theorem ext {a b : Whole} (h : a.value = b.value) : a = b := by
  cases a; cases b; simp_all

theorem value_of_ofInt? {n : Int} {w : Whole} (h : ofInt? n = some w) : w.value = n := by
  simp only [ofInt?] at h
  split at h <;> simp_all
  exact h ▸ rfl

theorem natAbs_lt (w : Whole) : w.value.natAbs < 2 ^ (64 : Nat) := by
  have := w.low
  have := w.high
  omega

/-- The double nearest to a whole number. -/
def nearest (w : Whole) : Binary64 :=
  ⟨w.value < 0, roundUnits (w.value.natAbs * unitsInOne) 1, roundUnits_aligned _ _, by
    refine Nat.lt_trans (log2_roundUnits_lt (k := 64 + bitsInOne) ?_) (by decide)
    rw [Nat.div_one, Nat.pow_add, ← unitsInOne]
    exact Nat.mul_lt_mul_of_pos_right w.natAbs_lt unitsInOne_pos⟩

/-- The integer in decimal. -/
def written (w : Whole) : List Char :=
  (if w.value < 0 then ['-'] else []) ++ Nat.toDigits 10 w.value.natAbs

end Whole

/-- A whole number or a finite double. -/
inductive Number where
  | whole (n : Whole)
  | float (d : Binary64)
deriving DecidableEq

namespace Number

/-- The double that stands for a number when a double takes part in a comparison. -/
def nearest : Number → Binary64
  | whole n => n.nearest
  | float d => d

/-- The order of two numbers. -/
def order : Number → Number → Ordering
  | whole a, whole b => compare a.value b.value
  | a, b => compare a.nearest.scaled b.nearest.scaled

/-- Whether two numbers are of one kind and equal. The two zeros of the doubles are equal. -/
def same : Number → Number → Bool
  | whole a, whole b => a.value == b.value
  | float a, float b => a.scaled == b.scaled
  | _, _ => false

/-- The written form: a whole number without a point, a double with a point or an exponent. -/
def written : Number → List Char
  | whole n => n.written
  | float d => d.written

end Number

end PathAccess
