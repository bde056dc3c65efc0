import Mathlib.Data.List.Zip
import PathAccess.Proofs.Json.TotalOrder
/-!
# Equality of values, and what the total order takes for equal

The equality of a filter is reflexive and symmetric. Two values that are
equal for a filter are equal in the total order as well
(`totalOrder_eq_of_equal`), which takes any two objects for equal. Where
there are no objects the two relations still part, inside arrays: the
total order compares the numbers there as it compares numbers anywhere,
while equality asks that they be of one kind. So `7` and `7.0` are equal
both ways, and `[7]` and `[7.0]` only in the total order. This is the one
difference (`equal_iff_totalOrder_eq`).

To speak of the numbers at one place of two arrays, `Faces` follows the
two values down the same items.
-/

namespace PathAccess

/-! ## Numbers -/

namespace Number

variable {m n : Number}

/-- Whether the number is a double. -/
def isDouble : Number → Bool
  | whole _ => false
  | float _ => true

theorem same_self (n : Number) : n.same n = true := by
  cases n <;> exact beq_self_eq_true _

theorem same_comm (m n : Number) : m.same n = n.same m := by
  cases m <;> cases n <;> first | rfl | exact BEq.comm

theorem order_self (n : Number) : n.order n = .eq :=
  Ordering.eq_eq_of_eq_swap (order_swap n n)

/-- **Numbers are the same if they compare equal and are of one kind.** -/
theorem same_iff : m.same n = true ↔ m.order n = .eq ∧ m.isDouble = n.isDouble := by
  cases m <;> cases n <;> simp [same, order, isDouble, nearest]

end Number

namespace Json

variable {a b i j x y : Json} {as bs items : List Json}

/-! ## Reflexivity and symmetry -/

theorem sameItems_self (h : ∀ i ∈ items, i.same i = true) : sameItems items items = true := by
  induction items with
  | nil => rfl
  | cons i items ih =>
    obtain ⟨hi, hitems⟩ := List.forall_mem_cons.1 h
    rw [sameItems, hi, ih hitems]
    rfl

theorem sameEntries_self {entries : List (String × Json)}
    (h : ∀ e ∈ entries, e.2.same e.2 = true) : sameEntries entries entries = true := by
  induction entries with
  | nil => rfl
  | cons e entries ih =>
    obtain ⟨he, hentries⟩ := List.forall_mem_cons.1 h
    rw [sameEntries, beq_self_eq_true, he, ih hentries]
    rfl

/-- **Every value is the same as itself.** -/
theorem same_self (j : Json) : j.same j = true := by
  induction j using partInduction with
  | step j hitems hentries =>
    cases j with
    | null => rfl
    | bool b => exact beq_self_eq_true b
    | number n => exact n.same_self
    | string s => exact beq_self_eq_true s
    | array items => exact sameItems_self (hitems items rfl)
    | object entries => exact sameEntries_self (hentries entries rfl)

/-- Values of different kinds are not the same, -/
theorem same_of_not_alike (h : ¬ Alike a b) : a.same b = false := by
  cases a <;> cases b <;> first | rfl | exact absurd (by constructor) h

/-- and not equal. -/
theorem equal_of_not_alike (h : ¬ Alike a b) : a.equal b = false := by
  cases a <;> cases b <;> first | rfl | exact absurd (by constructor) h

theorem sameItems_comm (h : ∀ a ∈ as, ∀ b, a.same b = b.same a) :
    sameItems as bs = sameItems bs as := by
  induction as generalizing bs with
  | nil => cases bs <;> rfl
  | cons a as ih =>
    obtain ⟨ha, has⟩ := List.forall_mem_cons.1 h
    cases bs with
    | nil => rfl
    | cons b bs => rw [sameItems, sameItems, ha b, ih has]

theorem sameEntries_comm {es fs : List (String × Json)}
    (h : ∀ e ∈ es, ∀ b, e.2.same b = b.same e.2) : sameEntries es fs = sameEntries fs es := by
  induction es generalizing fs with
  | nil => cases fs <;> rfl
  | cons e es ih =>
    obtain ⟨he, hes⟩ := List.forall_mem_cons.1 h
    cases fs with
    | nil => rfl
    | cons f fs => rw [sameEntries, sameEntries, BEq.comm, he f.2, ih hes]

/-- **It does not matter which of two values is named first.** -/
theorem same_comm (a b : Json) : a.same b = b.same a := by
  induction a using partInduction generalizing b with
  | step a hitems hentries =>
    by_cases hkind : Alike a b
    · cases hkind with
      | null => rfl
      | bool p q => exact BEq.comm
      | number m n => exact m.same_comm n
      | string s t => exact BEq.comm
      | array as bs => exact sameItems_comm (hitems as rfl)
      | object es fs => exact sameEntries_comm (hentries es rfl)
    · rw [same_of_not_alike hkind, same_of_not_alike (mt Alike.symm hkind)]

/-- **Equality is reflexive.** -/
theorem equal_self (a : Json) : a.equal a = true := by
  cases a with
  | number n => exact beq_iff_eq.2 n.order_self
  | _ => exact same_self _

/-- **And it is symmetric.** -/
theorem equal_comm (a b : Json) : a.equal b = b.equal a := by
  by_cases hkind : Alike a b
  · cases hkind with
    | number m n =>
      show (m.order n == .eq) = (n.order m == .eq)
      rw [Number.order_swap m n]
      cases m.order n <;> rfl
    | _ => exact same_comm _ _
  · rw [equal_of_not_alike hkind, equal_of_not_alike (mt Alike.symm hkind)]

/-! ## One place in two values -/

/-- **The first two values face each other in the last two**: the same
items, taken one inside the other, lead to the one and to the other. -/
inductive Faces : Json → Json → Json → Json → Prop where
  | here (a b : Json) : Faces a b a b
  | item {x y a b : Json} {as bs : List Json} :
      (a, b) ∈ as.zip bs → Faces x y a b → Faces x y (.array as) (.array bs)

/-- Numbers that face each other in the values are of one kind. -/
def KindsAgree (a b : Json) : Prop :=
  ∀ m n : Number, Faces (.number m) (.number n) a b → m.isDouble = n.isDouble

/-- In two arrays they are of one kind if they are in any two items. -/
theorem kindsAgree_array_iff :
    KindsAgree (.array as) (.array bs) ↔ ∀ {a b}, (a, b) ∈ as.zip bs → KindsAgree a b := by
  constructor
  · intro h a b hmem m n hfaces
    exact h m n (.item hmem hfaces)
  · intro h m n hfaces
    cases hfaces with
    | item hmem hfaces => exact h hmem m n hfaces

theorem kindsAgree_number_iff {m n : Number} :
    KindsAgree (.number m) (.number n) ↔ m.isDouble = n.isDouble := by
  constructor
  · intro h
    exact h m n (.here _ _)
  · intro h m' n' hfaces
    cases hfaces
    exact h

/-- Other values hold no numbers. -/
theorem kindsAgree_of_scalar (hnumber : ∀ m, a ≠ .number m) (harray : ∀ as, a ≠ .array as) :
    KindsAgree a b := by
  intro m n hfaces
  cases hfaces with
  | here => exact absurd rfl (hnumber m)
  | item => exact absurd rfl (harray _)

/-- The value holds no object, at any depth. -/
def ObjectFree (j : Json) : Prop :=
  ∀ entries, ¬ Part (.object entries) j

@[simp] theorem objectFree_number (n : Number) : (number n).ObjectFree := by
  intro entries hpart
  cases hpart

/-- An array holds none if its items do not. -/
@[simp] theorem objectFree_array_iff : (array items).ObjectFree ↔ ∀ i ∈ items, i.ObjectFree := by
  constructor
  · intro h i hi entries hpart
    exact h entries (.item hi hpart)
  · intro h entries hpart
    cases hpart with
    | item hi hpart => exact h _ hi entries hpart

/-! ## Two relations on arrays -/

theorem sameItems_iff :
    sameItems as bs = true ↔ List.Forall₂ (fun a b => a.same b = true) as bs := by
  induction as generalizing bs with
  | nil => cases bs <;> simp [sameItems]
  | cons a as ih => cases bs <;> simp [sameItems, ih]

theorem itemOrder_eq_iff :
    itemOrder as bs = .eq ↔ List.Forall₂ (fun a b => a.totalOrder b = .eq) as bs := by
  induction as generalizing bs with
  | nil => cases bs <;> simp [itemOrder]
  | cons a as ih => cases bs <;> simp [itemOrder, ih, Ordering.then_eq_eq]

/-- **Arrays are the same** if they are equal in the total order and
their numbers agree in kind, where this is so for their items. -/
theorem sameItems_iff_itemOrder_eq
    (h : ∀ a ∈ as, ∀ b, a.same b = true ↔ a.totalOrder b = .eq ∧ KindsAgree a b) :
    sameItems as bs = true ↔ itemOrder as bs = .eq ∧ KindsAgree (.array as) (.array bs) := by
  have hitem : ∀ {a b}, (a, b) ∈ as.zip bs →
      (a.same b = true ↔ a.totalOrder b = .eq ∧ KindsAgree a b) :=
    fun hmem => h _ (List.of_mem_zip hmem).1 _
  rw [sameItems_iff, itemOrder_eq_iff, kindsAgree_array_iff, List.forall₂_iff_zip,
    List.forall₂_iff_zip]
  constructor
  · rintro ⟨hlen, hsame⟩
    exact ⟨⟨hlen, fun hmem => ((hitem hmem).1 (hsame hmem)).1⟩,
      fun hmem => ((hitem hmem).1 (hsame hmem)).2⟩
  · rintro ⟨⟨hlen, heq⟩, hkinds⟩
    exact ⟨hlen, fun hmem => (hitem hmem).2 ⟨heq hmem, hkinds hmem⟩⟩

/-! ## Where the two relations part -/

/-- Values of different kinds are not equal in the total order. -/
theorem totalOrder_ne_eq_of_not_alike (h : ¬ Alike a b) : a.totalOrder b ≠ .eq := by
  rw [totalOrder_eq_of_not_alike h]
  intro hrank
  exact h (alike_of_rank_eq (compare_eq_iff_eq.1 hrank))

/-- Two scalars with an order have it in the total order. -/
theorem totalOrder_of_scalarOrder? {o : Ordering} (h : scalarOrder? a b = some o) :
    a.totalOrder b = o := by
  cases a <;> cases b <;> cases h <;> rfl

/-- So the two relations agree on them. -/
theorem equal_iff_of_scalarOrder? {o : Ordering} (h : scalarOrder? a b = some o) :
    a.equal b = true ↔ a.totalOrder b = .eq := by
  rw [equal_of_scalarOrder? h, totalOrder_of_scalarOrder? h, beq_iff_eq]

/-- Values that are the same are equal in the total order; by induction
along the items. -/
theorem totalOrder_eq_of_same (h : a.same b = true) : a.totalOrder b = .eq := by
  induction a using itemInduction generalizing b with
  | step a ih =>
    by_cases hkind : Alike a b
    · cases hkind with
      | null => rfl
      | bool p q => exact (equal_iff_of_scalarOrder? rfl).1 h
      | number m n => exact (Number.same_iff.1 h).1
      | string s t => exact (equal_iff_of_scalarOrder? rfl).1 h
      | array as bs =>
        obtain ⟨hlen, hsame⟩ := List.forall₂_iff_zip.1 (sameItems_iff.1 h)
        refine itemOrder_eq_iff.2 (List.forall₂_iff_zip.2 ⟨hlen, fun hmem => ?_⟩)
        exact ih as rfl _ (List.of_mem_zip hmem).1 (hsame hmem)
      | object es fs => rfl
    · rw [same_of_not_alike hkind] at h
      cases h

/-- **Values that are equal are equal in the total order**, whatever they
hold. -/
theorem totalOrder_eq_of_equal (h : a.equal b = true) : a.totalOrder b = .eq := by
  by_cases hkind : Alike a b
  · cases hkind with
    | number m n => exact (equal_iff_of_scalarOrder? rfl).1 h
    | _ => exact totalOrder_eq_of_same h
  · rw [equal_of_not_alike hkind] at h
    cases h

theorem same_iff_of_scalarOrder? {o : Ordering} (h : scalarOrder? a b = some o)
    (hsame : a.same b = a.equal b) (hkinds : KindsAgree a b) :
    a.same b = true ↔ a.totalOrder b = .eq ∧ KindsAgree a b := by
  rw [hsame, equal_iff_of_scalarOrder? h, and_iff_left hkinds]

/-- **Values without objects are the same** exactly if they are equal in
the total order and their numbers agree in kind; by induction along the
items. -/
theorem same_iff_totalOrder_eq (ha : a.ObjectFree) :
    a.same b = true ↔ a.totalOrder b = .eq ∧ KindsAgree a b := by
  induction a using itemInduction generalizing b with
  | step a ih =>
    by_cases hkind : Alike a b
    · cases hkind with
      | null =>
        have hkinds : KindsAgree .null .null := kindsAgree_of_scalar (by simp) (by simp)
        exact ⟨fun _ => ⟨rfl, hkinds⟩, fun _ => rfl⟩
      | bool p q =>
        exact same_iff_of_scalarOrder? rfl rfl (kindsAgree_of_scalar (by simp) (by simp))
      | string s t =>
        exact same_iff_of_scalarOrder? rfl rfl (kindsAgree_of_scalar (by simp) (by simp))
      | number m n =>
        rw [kindsAgree_number_iff]
        exact Number.same_iff
      | array as bs =>
        have hitems := objectFree_array_iff.1 ha
        exact sameItems_iff_itemOrder_eq fun a hmem b => ih as rfl a hmem (hitems a hmem)
      | object as bs => exact absurd (.refl _) (ha as)
    · have hsame : a.same b ≠ true := by simp [same_of_not_alike hkind]
      exact ⟨fun h => absurd h hsame, fun h => absurd h.1 (totalOrder_ne_eq_of_not_alike hkind)⟩

/-- **Equality and the total order part over the kinds of numbers.** Two
values of which one holds no object are equal exactly if they are equal
in the total order and, should they be arrays, no whole number faces a
double in them. At the top the two relations are one. -/
theorem equal_iff_totalOrder_eq (ha : a.ObjectFree) :
    a.equal b = true ↔ a.totalOrder b = .eq ∧
      ∀ as bs, a = .array as → b = .array bs → KindsAgree a b := by
  by_cases hkind : Alike a b
  · cases hkind with
    | array as bs =>
      have hsame : (array as).equal (.array bs) = (array as).same (.array bs) := rfl
      rw [hsame, same_iff_totalOrder_eq ha]
      exact and_congr_right fun _ => ⟨fun h _ _ _ _ => h, fun h => h as bs rfl rfl⟩
    | null => exact ⟨fun _ => ⟨rfl, by simp⟩, fun _ => rfl⟩
    | bool p q => rw [equal_iff_of_scalarOrder? rfl]; simp
    | number m n => rw [equal_iff_of_scalarOrder? rfl]; simp
    | string s t => rw [equal_iff_of_scalarOrder? rfl]; simp
    | object as bs => exact absurd (.refl _) (ha as)
  · have hequal : a.equal b ≠ true := by simp [equal_of_not_alike hkind]
    exact ⟨fun h => absurd h hequal, fun h => absurd h.1 (totalOrder_ne_eq_of_not_alike hkind)⟩

/-! ## Seven as a whole number and as a double -/

/-- The number `7`. -/
def wholeSeven : Json := .number (.whole ⟨7, by decide, by decide⟩)

/-- The number `7.0`. -/
def doubleSeven : Json :=
  .number (.float ⟨false, 7 * unitsInOne, by decide +kernel, by decide +kernel⟩)

/-- `7` and `7.0` are equal, and `[[7]]` and `[[7.0]]` are so in the total
order alone. -/
theorem equal_iff_totalOrder_eq_sevens :
    wholeSeven.ObjectFree ∧ wholeSeven.equal doubleSeven = true ∧
      (array [.array [wholeSeven]]).ObjectFree ∧
      (array [.array [wholeSeven]]).totalOrder (.array [.array [doubleSeven]]) = .eq ∧
      (array [.array [wholeSeven]]).equal (.array [.array [doubleSeven]]) ≠ true := by
  have hseven : wholeSeven.ObjectFree := objectFree_number _
  have hnested : (array [.array [wholeSeven]]).ObjectFree := by simp [hseven]
  have hfaces : Faces wholeSeven doubleSeven (.array [.array [wholeSeven]])
      (.array [.array [doubleSeven]]) :=
    .item List.mem_cons_self (.item List.mem_cons_self (.here _ _))
  refine ⟨hseven, ?_, hnested, by decide +kernel, ?_⟩
  · exact (equal_iff_totalOrder_eq hseven).2 ⟨by decide +kernel, nofun⟩
  · intro hequal
    have hkinds := ((equal_iff_totalOrder_eq hnested).1 hequal).2 _ _ rfl rfl
    exact absurd (hkinds _ _ hfaces) (by decide)

/-- **The total order takes values for equal that are not**, though they
hold no object: `[7]` and `[7.0]`. -/
theorem sevens_equal_in_totalOrder_only :
    (array [wholeSeven]).ObjectFree ∧ (array [doubleSeven]).ObjectFree ∧
      (array [wholeSeven]).totalOrder (.array [doubleSeven]) = .eq ∧
      (array [wholeSeven]).equal (.array [doubleSeven]) = false := by
  refine ⟨?_, ?_, by decide +kernel, by decide +kernel⟩
  · simp [wholeSeven]
  · simp [doubleSeven]

end Json

end PathAccess
