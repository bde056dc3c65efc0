import Mathlib.Logic.ExistsUnique
import PathAccess.Comparison
import PathAccess.Proofs.Json.Equality
/-!
# The operators of a filter are one family

Two numbers, two strings or two booleans have an order, and an operator
says of them what it says of their order (`test_eq_holdsIn`): so the laws
between operators are laws of the three orders. Other values have none.
The relational operators fail on them, and equality, which asks for no
order, remains.

Numbers are the delicate case, as they come in three types. Two of them
are compared in the first type that holds both: the integers of 64 bits
with a sign, those without one, and the doubles. On integers this never
ends with the doubles but where one is negative and the other beyond the
signed range, and there rounding keeps them apart
(`orderByType_eq_order`).
-/

-- powers are those of the core library, also where others are in scope
attribute [local instance (2000)] instPowNat

namespace PathAccess

/-! ## Numbers by type -/

/-- Rounding keeps the negative integers apart from the others. -/
theorem Whole.nearest_lt_of_neg {a b : Whole} (ha : a.value < 0) (hb : 0 ≤ b.value) :
    a.nearest.scaled < b.nearest.scaled := by
  have hone : (⟨-1, by decide, by decide⟩ : Whole).nearest.scaled < 0 := by decide +kernel
  have hzero : Whole.zero.nearest.scaled = 0 := by decide +kernel
  have hbelow : a.nearest.scaled ≤ (⟨-1, by decide, by decide⟩ : Whole).nearest.scaled :=
    Whole.nearest_mono (Int.le_sub_one_of_lt ha)
  have habove : Whole.zero.nearest.scaled ≤ b.nearest.scaled := Whole.nearest_mono hb
  omega

/-- So it keeps their order. -/
theorem Whole.compare_nearest_of_neg {a b : Whole}
    (h : a.value < 0 ∧ 0 ≤ b.value ∨ b.value < 0 ∧ 0 ≤ a.value) :
    compare a.nearest.scaled b.nearest.scaled = compare a.value b.value := by
  rcases h with ⟨ha, hb⟩ | ⟨hb, ha⟩
  · have hvalue : a.value < b.value := by omega
    rw [compare_lt_iff_lt.2 hvalue, compare_lt_iff_lt.2 (nearest_lt_of_neg ha hb)]
  · have hvalue : b.value < a.value := by omega
    rw [compare_gt_iff_gt.2 hvalue, compare_gt_iff_gt.2 (nearest_lt_of_neg hb ha)]

namespace Number

/-- The integer that the number is, if it fits 64 bits with a sign. -/
def signed? : Number → Option Int
  | whole n => if n.value < 2 ^ (63 : Nat) then some n.value else none
  | float _ => none

/-- The integer that the number is, if it fits 64 bits without one. -/
def unsigned? : Number → Option Int
  | whole n => if 0 ≤ n.value then some n.value else none
  | float _ => none

/-- The order of two numbers in a type of integers that holds both. -/
def orderIn? (integer? : Number → Option Int) (a b : Number) : Option Ordering :=
  match integer? a, integer? b with
  | some m, some n => some (compare m n)
  | _, _ => none

/-- The order of two numbers in the first type that holds both. Doubles
hold all of them, rounded. -/
def orderByType (a b : Number) : Ordering :=
  match orderIn? signed? a b, orderIn? unsigned? a b with
  | some o, _ => o
  | none, some o => o
  | none, none => compare a.nearest.scaled b.nearest.scaled

variable {a b : Number} {o : Ordering}

/-- Each type holds its integers as they are. -/
theorem eq_order_of_orderIn? {integer? : Number → Option Int}
    (hexact : ∀ n k, integer? n = some k → ∃ w : Whole, n = .whole w ∧ w.value = k)
    (h : orderIn? integer? a b = some o) : o = a.order b := by
  simp only [orderIn?] at h
  split at h
  · rename_i m n hm hn
    obtain ⟨v, rfl, rfl⟩ := hexact a m hm
    obtain ⟨w, rfl, rfl⟩ := hexact b n hn
    exact (Option.some.inj h).symm
  · cases h

theorem exists_whole_of_signed? (n : Number) (k : Int) (h : n.signed? = some k) :
    ∃ w : Whole, n = .whole w ∧ w.value = k := by
  cases n with
  | whole w => simp_all [signed?]
  | float d => cases h

theorem exists_whole_of_unsigned? (n : Number) (k : Int) (h : n.unsigned? = some k) :
    ∃ w : Whole, n = .whole w ∧ w.value = k := by
  cases n with
  | whole w => simp_all [unsigned?]
  | float d => cases h

/-- Of two integers that neither type holds together, just one is
negative. -/
theorem neg_of_orderIn?_eq_none {m n : Whole}
    (hsigned : orderIn? signed? (.whole m) (.whole n) = none)
    (hunsigned : orderIn? unsigned? (.whole m) (.whole n) = none) :
    m.value < 0 ∧ 0 ≤ n.value ∨ n.value < 0 ∧ 0 ≤ m.value := by
  have hlarge : ¬ (m.value < 2 ^ (63 : Nat) ∧ n.value < 2 ^ (63 : Nat)) := by
    rintro ⟨hm, hn⟩
    simp only [orderIn?, signed?, if_pos hm, if_pos hn] at hsigned
    cases hsigned
  have hnegative : ¬ (0 ≤ m.value ∧ 0 ≤ n.value) := by
    rintro ⟨hm, hn⟩
    simp only [orderIn?, unsigned?, if_pos hm, if_pos hn] at hunsigned
    cases hunsigned
  omega

/-- **The types agree.** Integers of any two types have the order of the
integers. -/
theorem orderByType_eq_order (a b : Number) : a.orderByType b = a.order b := by
  simp only [orderByType]
  split
  · rename_i o ho
    exact eq_order_of_orderIn? exists_whole_of_signed? ho
  · rename_i o _ ho
    exact eq_order_of_orderIn? exists_whole_of_unsigned? ho
  · rename_i hsigned hunsigned
    cases a with
    | float d => rfl
    | whole m =>
      cases b with
      | float d => rfl
      | whole n => exact Whole.compare_nearest_of_neg (neg_of_orderIn?_eq_none hsigned hunsigned)

end Number

/-! ## Values with an order -/

namespace Json

/-- Two numbers, two strings or two booleans. -/
inductive Comparable : Json → Json → Prop where
  | number (m n : Number) : Comparable (.number m) (.number n)
  | string (s t : String) : Comparable (.string s) (.string t)
  | bool (p q : Bool) : Comparable (.bool p) (.bool q)

variable {a b : Json} {o : Ordering}

/-- **These are the values that have an order.** -/
theorem comparable_iff : Comparable a b ↔ ∃ o, a.scalarOrder? b = some o := by
  constructor
  · intro h
    cases h <;> exact ⟨_, rfl⟩
  · rintro ⟨o, h⟩
    cases a <;> cases b <;> first | constructor | cases h

theorem scalarOrder?_eq_none (h : ¬ Comparable a b) : a.scalarOrder? b = none := by
  rw [Option.eq_none_iff_forall_ne_some]
  intro o ho
  exact h (comparable_iff.2 ⟨o, ho⟩)

/-- The other way round they have the reverse order. -/
theorem scalarOrder?_swap (a b : Json) :
    b.scalarOrder? a = (a.scalarOrder? b).map Ordering.swap := by
  by_cases h : Comparable a b
  · cases h with
    | number m n => exact congrArg some (Number.order_swap m n)
    | string s t => exact congrArg some (stringOrder_swap s t)
    | bool p q => exact congrArg some (boolOrder_swap p q)
  · have h' : ¬ Comparable b a := fun h' => h (by cases h' <;> constructor)
    rw [scalarOrder?_eq_none h, scalarOrder?_eq_none h']
    rfl

end Json

/-! ## Operators and orders -/

namespace Comparison

variable {op : Comparison} {a b : Json} {o : Ordering}

/-- Whether an operator holds of values in an order. -/
def holdsIn : Comparison → Ordering → Bool
  | equal, o => o == .eq
  | notEqual, o => o != .eq
  | op, o => op.admits o

/-- **An operator says of two values what it says of their order**, if
they have one. -/
theorem test_eq_holdsIn (h : a.scalarOrder? b = some o) : op.test a b = op.holdsIn o := by
  have hequal : a.equal b = (o == .eq) := Json.equal_of_scalarOrder? h
  cases op with
  | equal => exact hequal
  | notEqual => exact congrArg (! ·) hequal
  | _ => simp only [test, h, holdsIn]

/-- If they have none, the relational operators fail. -/
theorem test_of_not_comparable (h : ¬ a.Comparable b) (hop : op.isRelational = true) :
    op.test a b = false := by
  cases op <;> simp_all [test, isRelational, Json.scalarOrder?_eq_none h]

/-- The operator with its sides exchanged. -/
def converse : Comparison → Comparison
  | less => greater
  | lessOrEqual => greaterOrEqual
  | greater => less
  | greaterOrEqual => lessOrEqual
  | op => op

/-- **Exchanging the sides of an operator and its operands** changes
nothing. -/
theorem test_converse (op : Comparison) (a b : Json) : op.converse.test b a = op.test a b := by
  by_cases h : a.Comparable b
  · obtain ⟨o, ho⟩ := Json.comparable_iff.1 h
    have hswap : b.scalarOrder? a = some o.swap := by rw [Json.scalarOrder?_swap, ho]; rfl
    rw [test_eq_holdsIn ho, test_eq_holdsIn hswap]
    cases op <;> cases o <;> rfl
  · have h' : ¬ b.Comparable a := fun h' => h (by cases h' <;> constructor)
    cases op with
    | equal => exact Json.equal_comm b a
    | notEqual => exact congrArg (! ·) (Json.equal_comm b a)
    | _ => rw [test_of_not_comparable h rfl, test_of_not_comparable h' rfl]

/-- The operator that holds in an order and in no other. -/
def ofOrdering : Ordering → Comparison
  | .lt => less
  | .eq => equal
  | .gt => greater

/-- The operators that exclude each other. -/
def exclusive : List Comparison :=
  [less, equal, greater]

theorem test_iff_of_exclusive (hop : op ∈ exclusive) (h : a.scalarOrder? b = some o) :
    op.test a b = true ↔ op = ofOrdering o := by
  rw [test_eq_holdsIn h]
  simp only [exclusive, List.mem_cons, List.not_mem_nil, or_false] at hop
  rcases hop with rfl | rfl | rfl <;> cases o <;> decide

/-- **Exactly one of them holds** between two values with an order. -/
theorem existsUnique_test (h : a.scalarOrder? b = some o) :
    ∃! op, op ∈ exclusive ∧ op.test a b = true := by
  have hmem : ofOrdering o ∈ exclusive := by cases o <;> decide
  refine ⟨ofOrdering o, ⟨hmem, (test_iff_of_exclusive hmem h).2 rfl⟩, ?_⟩
  rintro op ⟨hop, htest⟩
  exact (test_iff_of_exclusive hop h).1 htest

/-- An operator asks for no order if it is `==` or `!=`. -/
theorem isRelational_eq_false_iff : op.isRelational = false ↔ op = equal ∨ op = notEqual := by
  cases op <;> decide

/-! ## Null and integers -/

/-- Null is unequal to any other value, and that is all. -/
theorem test_null_left (h : b ≠ .null) : op.test .null b = (op == .notEqual) := by
  have hequal : Json.null.equal b = false := by
    cases b <;> simp_all [Json.equal, Json.same]
  cases op <;> simp [test, hequal, Json.scalarOrder?]

/-- **Null is equal to null and unequal to anything else**, and no other
operator holds of it. -/
theorem test_null_iff :
    op.test .null b = true ↔ op = equal ∧ b = .null ∨ op = notEqual ∧ b ≠ .null := by
  by_cases hb : b = .null
  · subst hb
    cases op <;> simp [test, Json.equal, Json.same, Json.scalarOrder?]
  · simp [test_null_left hb, hb]

/-- The relation between integers that an operator is written for. -/
def Relates : Comparison → Int → Int → Prop
  | equal, m, n => m = n
  | notEqual, m, n => m ≠ n
  | less, m, n => m < n
  | lessOrEqual, m, n => m ≤ n
  | greater, m, n => m > n
  | greaterOrEqual, m, n => m ≥ n

theorem holdsIn_compare_iff (op : Comparison) (m n : Int) :
    op.holdsIn (compare m n) = true ↔ op.Relates m n := by
  rcases lt_trichotomy m n with h | h | h
  · rw [compare_lt_iff_lt.2 h]
    cases op <;> simp [holdsIn, admits, Relates] <;> omega
  · rw [compare_eq_iff_eq.2 h]
    cases op <;> simp [holdsIn, admits, Relates] <;> omega
  · rw [compare_gt_iff_gt.2 h]
    cases op <;> simp [holdsIn, admits, Relates] <;> omega

/-- **Of two integers an operator says what it is written for**, wherever
the two lie in the joint range of the types. -/
theorem test_whole_iff (op : Comparison) (m n : Whole) :
    op.test (.number (.whole m)) (.number (.whole n)) = true ↔ op.Relates m.value n.value := by
  have horder : Json.scalarOrder? (.number (.whole m)) (.number (.whole n)) =
      some (compare m.value n.value) := rfl
  rw [test_eq_holdsIn horder, holdsIn_compare_iff]

/-- **The six operators are one family.** `!=` is the negation of `==`,
which is reflexive and symmetric, and the relational operators come in
converse pairs. Between two values with an order exactly one of `<`, `==`
and `>` holds, and `<=` is the one or the other of the first two; between
any others no relational operator holds. Integers have the order of the
integers, and to compare numbers in the first type that holds both gives
their order. -/
theorem test_coherent (a b : Json) :
    (notEqual.test a b = !equal.test a b) ∧
    equal.test a a = true ∧ equal.test a b = equal.test b a ∧
    less.test a b = greater.test b a ∧ lessOrEqual.test a b = greaterOrEqual.test b a ∧
    (a.Comparable b →
      (∃! op, op ∈ exclusive ∧ op.test a b = true) ∧
      (lessOrEqual.test a b = true ↔ less.test a b = true ∨ equal.test a b = true)) ∧
    (¬ a.Comparable b → ∀ op : Comparison, op.isRelational = true → op.test a b = false) ∧
    (∀ (op : Comparison) (m n : Whole), op.test (.number (.whole m)) (.number (.whole n)) = true ↔
      op.Relates m.value n.value) ∧
    ∀ m n : Number, m.orderByType n = m.order n := by
  refine ⟨rfl, Json.equal_self a, Json.equal_comm a b, (test_converse less a b).symm,
    (test_converse lessOrEqual a b).symm, ?_, fun h op => test_of_not_comparable h,
    test_whole_iff, Number.orderByType_eq_order⟩
  intro h
  obtain ⟨o, ho⟩ := Json.comparable_iff.1 h
  refine ⟨existsUnique_test ho, ?_⟩
  rw [test_eq_holdsIn ho, test_eq_holdsIn ho, test_eq_holdsIn ho]
  cases o <;> decide

/-- No type of integers holds both `-1` and `2 ^ 63`. Yet `-1` is less,
and neither equal nor greater. -/
theorem test_coherent_farApart :
    let below : Whole := ⟨-1, by decide, by decide⟩
    let beyond : Whole := ⟨9223372036854775808, by decide, by decide⟩
    (Number.whole below).orderIn? Number.signed? (.whole beyond) = none ∧
      (Number.whole below).orderIn? Number.unsigned? (.whole beyond) = none ∧
      (Number.whole below).orderByType (.whole beyond) = .lt ∧
      less.test (.number (.whole below)) (.number (.whole beyond)) = true ∧
      ∃! op, op ∈ exclusive ∧ op.test (.number (.whole below)) (.number (.whole beyond)) = true := by
  intro below beyond
  obtain ⟨-, -, -, -, -, hordered, -, hwhole, htypes⟩ :=
    test_coherent (.number (.whole below)) (.number (.whole beyond))
  refine ⟨rfl, rfl, htypes _ _, ?_, (hordered (.number _ _)).1⟩
  exact (hwhole less below beyond).2 (by decide : (-1 : Int) < 9223372036854775808)

end Comparison

end PathAccess
