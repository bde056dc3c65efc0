import Mathlib.Data.String.Basic
import Mathlib.Order.Compare
import PathAccess.Json.Order
import PathAccess.Json.Part
import PathAccess.Proofs.Number.Rounding
/-!
# The total order of values — how far it is transitive

Every value is equal to itself in the total order, and two values in the
other order compare the other way round. Transitivity holds as far as
numbers keep apart: a double may be the nearest one to two whole numbers,
and then it is equal to both while one of them is the smaller. `Separated`
says of a set of numbers that this does not happen in it, and the values
built from a set of numbers are in a preorder exactly if it is separated.

The laws are stated for paths of two comparisons. `Composes` says more
than that two orders without a greater give no greater: the order of the
ends is the first strict one on the way. This is what passes through the
lexicographic comparison of kinds and of arrays.
-/

namespace PathAccess

/-! ## Paths of comparisons -/

/-- Where neither of two comparisons behind each other is greater, the
order of the ends is the first of them that is strict. -/
def Composes (first second ends : Ordering) : Prop :=
  first ≠ .gt → second ≠ .gt → ends = first.then second

/-- Comparisons that compose give no greater out of none. -/
theorem Composes.ne_gt {x y z : Ordering} (h : Composes x y z) (hx : x ≠ .gt) (hy : y ≠ .gt) :
    z ≠ .gt := by
  rw [h hx hy]
  cases x <;> simp_all [Ordering.then]

/-- **Lexicographic comparisons compose** where their parts do, of which
the later ones matter only behind equal ones. -/
theorem Composes.then {x y z x' y' z' : Ordering} (h : Composes x y z)
    (h' : x = .eq → y = .eq → Composes x' y' z') :
    Composes (x.then x') (y.then y') (z.then z') := by
  intro hx hy
  have hx₁ : x ≠ .gt := fun hgt => hx (by rw [hgt]; rfl)
  have hy₁ : y ≠ .gt := fun hgt => hy (by rw [hgt]; rfl)
  rw [h hx₁ hy₁]
  cases x with
  | gt => exact absurd rfl hx₁
  | lt => rfl
  | eq =>
    cases y with
    | gt => exact absurd rfl hy₁
    | eq => exact h' rfl rfl hx hy
    | lt =>
      -- what the first pair of parts says is lost behind the strict second one
      change x' ≠ .gt at hx
      change Ordering.lt = x'.then .lt
      cases x' with
      | gt => exact absurd rfl hx
      | _ => rfl

section

variable {α : Type} [LinearOrder α]

/-- When comparisons in a linear order compose. -/
theorem composes_compare_of {a a' b b' c c' : α} (hlt : a < a' → b ≤ b' → c < c')
    (hlt' : a = a' → b < b' → c < c') (heq : a = a' → b = b' → c = c') :
    Composes (compare a a') (compare b b') (compare c c') := by
  intro ha hb
  rw [compare_le_iff_le] at ha hb
  rcases ha.lt_or_eq with ha | ha
  · rw [compare_lt_iff_lt.2 ha, compare_lt_iff_lt.2 (hlt ha hb)]
    rfl
  · rw [compare_eq_iff_eq.2 ha]
    rcases hb.lt_or_eq with hb | hb
    · rw [compare_lt_iff_lt.2 hb, compare_lt_iff_lt.2 (hlt' ha hb)]
      rfl
    · rw [compare_eq_iff_eq.2 hb, compare_eq_iff_eq.2 (heq ha hb)]
      rfl

/-- In one linear order they always do. -/
theorem composes_compare (a b c : α) : Composes (compare a b) (compare b c) (compare a c) :=
  composes_compare_of lt_of_lt_of_le (fun h h' => h ▸ h') Eq.trans

/-- Comparing the other way round. -/
theorem compare_eq_swap (a b : α) : compare b a = (compare a b).swap := by
  rcases lt_trichotomy a b with h | h | h
  · rw [compare_lt_iff_lt.2 h, compare_gt_iff_gt.2 h]
    rfl
  · rw [compare_eq_iff_eq.2 h, compare_eq_iff_eq.2 h.symm]
    rfl
  · rw [compare_gt_iff_gt.2 h, compare_lt_iff_lt.2 h]
    rfl

end

/-! ## Numbers -/

namespace Number

/-- No double among the numbers is nearest to two whole numbers among
them. -/
def Separated (S : Number → Prop) : Prop :=
  ∀ (m n : Whole) (d : Binary64), S (.whole m) → S (.whole n) → S (.float d) →
    m.nearest.scaled = d.scaled → n.nearest.scaled = d.scaled → m = n

theorem order_swap (a b : Number) : b.order a = (a.order b).swap := by
  cases a <;> cases b <;> exact compare_eq_swap _ _

/-- What a separated set says of a double and two whole numbers in it. -/
theorem Separated.value_eq {S : Number → Prop} (hS : Separated S) {m n : Whole} {d : Binary64}
    (hm : S (.whole m)) (hn : S (.whole n)) (hd : S (.float d))
    (h : m.nearest.scaled = d.scaled) (h' : n.nearest.scaled = d.scaled) : m.value = n.value :=
  congrArg Whole.value (hS m n d hm hn hd h h')

/-- **Numbers that keep apart are in order.** The cases are those of the
kinds. Where a path compares two whole numbers directly and passes a
double elsewhere, the nearest doubles have to agree with the whole
numbers, and the set being separated is what makes them. -/
theorem order_composes {S : Number → Prop} (hS : Separated S) {a b c : Number} (ha : S a)
    (hb : S b) (hc : S c) : Composes (a.order b) (b.order c) (a.order c) := by
  rcases a with a | a <;> rcases b with b | b <;> rcases c with c | c
  · exact composes_compare _ _ _
  -- two whole numbers and a double
  · have hsep := hS.value_eq ha hb hc
    refine composes_compare_of (fun h h' => ?_) (fun h h' => ?_) fun h h' => ?_
    · have hle : a.nearest.scaled ≤ b.nearest.scaled := Whole.nearest_mono h.le
      refine lt_of_le_of_ne (hle.trans h') fun heq => h.ne ?_
      exact hsep heq (le_antisymm h' (heq ▸ hle))
    · rw [Whole.ext h]
      exact h'
    · rw [Whole.ext h]
      exact h'
  -- a double between two whole numbers
  · have hsep := hS.value_eq ha hc hb
    refine composes_compare_of (fun h h' => ?_) (fun h h' => ?_) fun h h' => ?_
    · by_contra hge
      exact absurd (h.trans_le h') (Whole.nearest_mono (not_lt.1 hge)).not_gt
    · by_contra hge
      exact absurd (h.trans_lt h') (Whole.nearest_mono (not_lt.1 hge)).not_gt
    · exact hsep h h'.symm
  · exact composes_compare _ _ _
  -- a double and two whole numbers
  · have hsep := hS.value_eq hb hc ha
    refine composes_compare_of (fun h h' => ?_) (fun h h' => ?_) fun h h' => ?_
    · exact h.trans_le (Whole.nearest_mono h')
    · have hle : b.nearest.scaled ≤ c.nearest.scaled := Whole.nearest_mono h'.le
      refine lt_of_le_of_ne (h.trans_le hle) fun heq => h'.ne ?_
      exact hsep h.symm heq.symm
    · rw [← Whole.ext h']
      exact h
  · exact composes_compare _ _ _
  · exact composes_compare _ _ _
  · exact composes_compare _ _ _

end Number

namespace Json

/-! ## Kinds -/

theorem stringOrder_eq_compare (a b : String) : stringOrder a b = compare a b :=
  (LinearOrder.compare_eq_compareOfLessAndEq a b).symm

theorem boolOrder_eq_compare (a b : Bool) : boolOrder a b = compare a b := by
  cases a <;> cases b <;> rfl

theorem stringOrder_swap (a b : String) : stringOrder b a = (stringOrder a b).swap := by
  rw [stringOrder_eq_compare, stringOrder_eq_compare]
  exact compare_eq_swap a b

theorem boolOrder_swap (a b : Bool) : boolOrder b a = (boolOrder a b).swap := by
  rw [boolOrder_eq_compare, boolOrder_eq_compare]
  exact compare_eq_swap a b

/-- Two scalars with an order are equal where it says so. -/
theorem equal_of_scalarOrder? {a b : Json} {o : Ordering} (h : scalarOrder? a b = some o) :
    a.equal b = (o == .eq) := by
  cases a <;> cases b <;> cases h
  case bool p q => cases p <;> cases q <;> rfl
  case number m n => rfl
  case string s t =>
    show (s == t) = (stringOrder s t == .eq)
    rw [stringOrder_eq_compare, Bool.eq_iff_iff, beq_iff_eq, beq_iff_eq, compare_eq_iff_eq]

/-- Values of one kind. -/
inductive Alike : Json → Json → Prop where
  | null : Alike .null .null
  | bool (a b : Bool) : Alike (.bool a) (.bool b)
  | number (a b : Number) : Alike (.number a) (.number b)
  | string (a b : String) : Alike (.string a) (.string b)
  | array (as bs : List Json) : Alike (.array as) (.array bs)
  | object (as bs : List (String × Json)) : Alike (.object as) (.object bs)

theorem Alike.symm {a b : Json} (h : Alike a b) : Alike b a := by
  cases h <;> constructor

/-- The rank tells the kinds apart. -/
theorem alike_of_rank_eq {a b : Json} (h : a.rank = b.rank) : Alike a b := by
  cases a <;> cases b <;> first | constructor | cases h

/-- The order of two values of one kind. -/
def kindOrder : Json → Json → Ordering
  | array as, array bs => itemOrder as bs
  | a, b => (scalarOrder? a b).getD .eq

/-- **Values are ordered by kind first.** -/
theorem totalOrder_eq (a b : Json) :
    a.totalOrder b = (compare a.rank b.rank).then (kindOrder a b) := by
  cases a <;> cases b <;> rfl

/-- Values of different kinds have the order of their kinds alone. -/
theorem totalOrder_eq_of_not_alike {a b : Json} (h : ¬ Alike a b) :
    a.totalOrder b = compare a.rank b.rank := by
  rw [totalOrder_eq]
  rcases lt_trichotomy a.rank b.rank with hlt | heq | hgt
  · rw [compare_lt_iff_lt.2 hlt]
    rfl
  · exact absurd (alike_of_rank_eq heq) h
  · rw [compare_gt_iff_gt.2 hgt]
    rfl

/-! ## Items -/

/-- Induction along the items of arrays, which is how far comparing two
values goes. -/
@[elab_as_elim]
theorem itemInduction {motive : Json → Prop}
    (step : ∀ j, (∀ items, j = .array items → ∀ i ∈ items, motive i) → motive j) (j : Json) :
    motive j :=
  partInduction (fun j hitems _ => step j hitems) j

/-- A number that comparing the value may compare: the value itself or
an item of it at any depth. Objects are not looked into. -/
inductive HasNumber : Json → Number → Prop where
  | number {n : Number} : HasNumber (.number n) n
  | item {i : Json} {items : List Json} {n : Number} :
      i ∈ items → HasNumber i n → HasNumber (.array items) n

/-- The numbers of the value are of a set. -/
def NumbersIn (S : Number → Prop) (j : Json) : Prop :=
  ∀ n, HasNumber j n → S n

theorem NumbersIn.item {S : Number → Prop} {items : List Json} {i : Json}
    (h : NumbersIn S (.array items)) (hi : i ∈ items) : NumbersIn S i :=
  fun n hn => h n (.item hi hn)

/-! ## Comparing the other way round -/

/-- Arrays are reversed as their items are. -/
theorem itemOrder_swap {as bs : List Json}
    (h : ∀ a ∈ as, ∀ b, totalOrder b a = (totalOrder a b).swap) :
    itemOrder bs as = (itemOrder as bs).swap := by
  induction as generalizing bs with
  | nil => cases bs <;> rfl
  | cons a as ih =>
    cases bs with
    | nil => rfl
    | cons b bs =>
      simp only [itemOrder, Ordering.swap_then]
      rw [h a List.mem_cons_self b, ih fun x hx => h x (List.mem_cons_of_mem _ hx)]

/-- **Comparing two values the other way round reverses their order.** -/
theorem totalOrder_swap (a b : Json) : b.totalOrder a = (a.totalOrder b).swap := by
  induction a using itemInduction generalizing b with
  | step a ih =>
    by_cases hkind : Alike a b
    · cases hkind with
      | null => rfl
      | bool p q => exact boolOrder_swap p q
      | number m n => exact Number.order_swap m n
      | string s t => exact stringOrder_swap s t
      | array as bs => exact itemOrder_swap (ih as rfl)
      | object => rfl
    · rw [totalOrder_eq_of_not_alike hkind, totalOrder_eq_of_not_alike (mt Alike.symm hkind)]
      exact compare_eq_swap _ _

/-- **Every value is equal to itself.** -/
theorem totalOrder_self (a : Json) : a.totalOrder a = .eq :=
  Ordering.eq_eq_of_eq_swap (totalOrder_swap a a)

/-! ## Paths of two comparisons -/

section

variable {S : Number → Prop}

/-- Arrays compose as their items do. -/
theorem itemOrder_composes {as bs cs : List Json}
    (h : ∀ a ∈ as, ∀ b ∈ bs, ∀ c ∈ cs,
      Composes (totalOrder a b) (totalOrder b c) (totalOrder a c)) :
    Composes (itemOrder as bs) (itemOrder bs cs) (itemOrder as cs) := by
  induction as generalizing bs cs with
  | nil =>
    cases bs with
    | nil => exact fun _ _ => rfl
    | cons b bs =>
      cases cs with
      | nil => exact fun _ hgt => absurd rfl hgt
      | cons c cs => exact fun _ _ => rfl
  | cons a as ih =>
    cases bs with
    | nil => exact fun hgt _ => absurd rfl hgt
    | cons b bs =>
      cases cs with
      | nil => exact fun _ hgt => absurd rfl hgt
      | cons c cs =>
        have hhead := h a List.mem_cons_self b List.mem_cons_self c List.mem_cons_self
        refine hhead.then fun _ _ => ih fun a ha b hb c hc => ?_
        exact h a (List.mem_cons_of_mem _ ha) b (List.mem_cons_of_mem _ hb) c
          (List.mem_cons_of_mem _ hc)

/-- **Values over separated numbers are in order**, by induction along
the items. -/
theorem totalOrder_composes (hS : Number.Separated S) {a b c : Json} (ha : NumbersIn S a)
    (hb : NumbersIn S b) (hc : NumbersIn S c) :
    Composes (a.totalOrder b) (b.totalOrder c) (a.totalOrder c) := by
  induction a using itemInduction generalizing b c with
  | step a ih =>
    rw [totalOrder_eq a b, totalOrder_eq b c, totalOrder_eq a c]
    refine (composes_compare _ _ _).then fun hab hbc => ?_
    have hab : Alike a b := alike_of_rank_eq (compare_eq_iff_eq.1 hab)
    have hbc : Alike b c := alike_of_rank_eq (compare_eq_iff_eq.1 hbc)
    cases hab with
    | null => cases hbc; exact fun _ _ => rfl
    | object => cases hbc; exact fun _ _ => rfl
    | bool p q =>
      cases hbc with
      | bool _ r =>
        simp only [kindOrder, scalarOrder?, Option.getD_some, boolOrder_eq_compare]
        exact composes_compare p q r
    | number m n =>
      cases hbc with
      | number _ o =>
        exact Number.order_composes hS (ha m .number) (hb n .number) (hc o .number)
    | string s t =>
      cases hbc with
      | string _ u =>
        simp only [kindOrder, scalarOrder?, Option.getD_some, stringOrder_eq_compare]
        exact composes_compare s t u
    | array as bs =>
      cases hbc with
      | array _ cs =>
        exact itemOrder_composes fun a hmem b hmem' c hmem'' =>
          ih as rfl a hmem (ha.item hmem) (hb.item hmem') (hc.item hmem'')

/-- **Where the total order is transitive**, numbers keep apart: a double
nearest to two whole numbers is equal to both, and they are equal through
it. -/
theorem separated_of_trans
    (h : ∀ a b c, NumbersIn S a → NumbersIn S b → NumbersIn S c →
      a.totalOrder b ≠ .gt → b.totalOrder c ≠ .gt → a.totalOrder c ≠ .gt) :
    Number.Separated S := by
  intro m n d hm hn hd hmd hnd
  have hle : ∀ m n : Whole, S (.whole m) → S (.whole n) → m.nearest.scaled = d.scaled →
      n.nearest.scaled = d.scaled → m.value ≤ n.value := by
    intro m n hm hn hmd hnd
    have hin : ∀ k, S k → NumbersIn S (.number k) := by
      rintro k hk _ ⟨⟩
      exact hk
    have hends := h (.number (.whole m)) (.number (.float d)) (.number (.whole n)) (hin _ hm)
      (hin _ hd) (hin _ hn) (compare_le_iff_le.2 hmd.le) (compare_le_iff_le.2 hnd.ge)
    exact compare_le_iff_le.1 hends
  exact Whole.ext (le_antisymm (hle m n hm hn hmd hnd) (hle n m hn hm hnd hmd))

end

/-- **The laws of the total order.** Every value is equal to itself, and
reversing a comparison reverses its outcome. The order is transitive on
the values over a set of numbers exactly if the set is separated. -/
theorem totalOrder_laws (S : Number → Prop) :
    (∀ a : Json, a.totalOrder a = .eq) ∧
      (∀ a b : Json, b.totalOrder a = (a.totalOrder b).swap) ∧
      ((∀ a b c, NumbersIn S a → NumbersIn S b → NumbersIn S c →
          a.totalOrder b ≠ .gt → b.totalOrder c ≠ .gt → a.totalOrder c ≠ .gt) ↔
        Number.Separated S) := by
  refine ⟨totalOrder_self, totalOrder_swap, separated_of_trans, ?_⟩
  intro hS a b c ha hb hc hab hbc
  exact (totalOrder_composes hS ha hb hc).ne_gt hab hbc

/-! ## A double between two whole numbers -/

/-- The whole number `2 ^ 53 + 1`, of which no double is the value. -/
def oddWhole : Whole := ⟨9007199254740993, by decide, by decide⟩

/-- Its neighbour `2 ^ 53`. -/
def evenWhole : Whole := ⟨9007199254740992, by decide, by decide⟩

/-- The double of value `2 ^ 53`. -/
def evenDouble : Binary64 :=
  ⟨false, 9007199254740992 * unitsInOne, by decide +kernel, by decide +kernel⟩

/-- The total order is not transitive: the double is equal to either
whole number, and one of them is greater than the other. -/
theorem totalOrder_not_trans :
    totalOrder (.number (.whole oddWhole)) (.number (.float evenDouble)) = .eq ∧
      totalOrder (.number (.float evenDouble)) (.number (.whole evenWhole)) = .eq ∧
      totalOrder (.number (.whole oddWhole)) (.number (.whole evenWhole)) = .gt := by
  decide +kernel

end Json

end PathAccess
