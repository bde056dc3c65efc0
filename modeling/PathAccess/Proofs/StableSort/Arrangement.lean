import Mathlib.Data.List.Perm.Basic
/-!
# The stable arrangement of a list

A list is arranged if its items are in order and items of equal order
stand as they stood. Where the order is a preorder on the items there is
one such arrangement only, so nothing depends on how it is found: every
stable sort gives this list.

What is selected from an arrangement is the arrangement of what is
selected, what is read backwards is arranged by the order read backwards,
and lists that are arranged apart may be arranged together.
-/

namespace PathAccess.StableSort

variable {α : Type} {order : α → α → Ordering} {S : α → Prop}
variable {x y z : α} {xs ys zs : List α}

/-! ## Preorders on a set -/

/-- **A preorder on a set**: reversing a comparison reverses its outcome
everywhere, and comparisons of the set's items are transitive. -/
structure PreorderOn (order : α → α → Ordering) (S : α → Prop) : Prop where
  swap (a b : α) : order b a = (order a b).swap
  trans {a b c : α} : S a → S b → S c → order a b ≠ .gt → order b c ≠ .gt → order a c ≠ .gt

namespace PreorderOn

variable {a b c : α}

/-- It is one on every smaller set. -/
theorem mono {T : α → Prop} (h : PreorderOn order S) (hTS : ∀ x, T x → S x) :
    PreorderOn order T where
  swap := h.swap
  trans ha hb hc := h.trans (hTS _ ha) (hTS _ hb) (hTS _ hc)

theorem ne_gt_of_ne_lt (h : PreorderOn order S) (hab : order a b ≠ .lt) : order b a ≠ .gt := by
  rw [h.swap a b]
  cases hord : order a b with
  | lt => exact absurd hord hab
  | eq => decide
  | gt => decide

theorem eq_of_ne_gt (h : PreorderOn order S) (hab : order a b ≠ .gt) (hba : order b a ≠ .gt) :
    order a b = .eq := by
  rw [h.swap a b] at hba
  cases hord : order a b with
  | lt =>
    rw [hord] at hba
    exact absurd rfl hba
  | eq => rfl
  | gt => exact absurd hord hab

theorem eq_comm (h : PreorderOn order S) (hab : order a b = .eq) : order b a = .eq := by
  rw [h.swap a b, hab]
  rfl

theorem eq_self (h : PreorderOn order S) (a : α) : order a a = .eq :=
  Ordering.eq_eq_of_eq_swap (h.swap a a)

theorem ne_gt_of_eq (hab : order a b = .eq) : order a b ≠ .gt := by
  rw [hab]
  decide

theorem ne_gt_of_lt (hab : order a b = .lt) : order a b ≠ .gt := by
  rw [hab]
  decide

/-- Items that are equal to one item are equal. -/
theorem eq_of_eq_of_eq (h : PreorderOn order S) (ha : S a) (hb : S b) (hc : S c)
    (hab : order a b = .eq) (hac : order a c = .eq) : order b c = .eq := by
  have hba := h.eq_comm hab
  have hca := h.eq_comm hac
  refine h.eq_of_ne_gt ?_ ?_
  · exact h.trans hb ha hc (ne_gt_of_eq hba) (ne_gt_of_eq hac)
  · exact h.trans hc ha hb (ne_gt_of_eq hca) (ne_gt_of_eq hab)

end PreorderOn

/-! ## The arrangement -/

/-- **The stable arrangement of a list**: its items in order, of which
those that are equal to one of them stand as they stood. -/
structure Arranges (order : α → α → Ordering) (xs sorted : List α) : Prop where
  perm : sorted.Perm xs
  ordered : sorted.Pairwise fun x y => order x y ≠ .gt
  stable : ∀ k ∈ xs,
    sorted.filter (fun x => order k x == .eq) = xs.filter fun x => order k x == .eq

/-- Ordered rearrangements of each other have equal heads. -/
theorem head_eq_of_perm (h : PreorderOn order S) (hperm : (y :: ys).Perm (z :: zs))
    (hys : (y :: ys).Pairwise fun x y => order x y ≠ .gt)
    (hzs : (z :: zs).Pairwise fun x y => order x y ≠ .gt) : order y z = .eq := by
  refine h.eq_of_ne_gt ?_ ?_
  · rcases List.mem_cons.1 (hperm.symm.subset List.mem_cons_self) with rfl | hz
    · exact PreorderOn.ne_gt_of_eq (h.eq_self z)
    · exact (List.pairwise_cons.1 hys).1 z hz
  · rcases List.mem_cons.1 (hperm.subset List.mem_cons_self) with rfl | hy
    · exact PreorderOn.ne_gt_of_eq (h.eq_self y)
    · exact (List.pairwise_cons.1 hzs).1 y hy

/-- Ordered rearrangements of each other are the same where they agree
on every class of equal items: both heads are the first of their class. -/
theorem eq_of_perm (h : PreorderOn order S) (hS : ∀ y ∈ ys, S y) (hperm : ys.Perm zs)
    (hys : ys.Pairwise fun x y => order x y ≠ .gt) (hzs : zs.Pairwise fun x y => order x y ≠ .gt)
    (hclass : ∀ k, S k →
      ys.filter (fun x => order k x == .eq) = zs.filter fun x => order k x == .eq) :
    ys = zs := by
  induction ys generalizing zs with
  | nil => exact hperm.nil_eq
  | cons y ys ih =>
    cases zs with
    | nil => exact absurd hperm.eq_nil (List.cons_ne_nil _ _)
    | cons z zs =>
      obtain ⟨hy, hS⟩ := List.forall_mem_cons.1 hS
      have heads := hclass y hy
      simp only [List.filter_cons, h.eq_self y, head_eq_of_perm h hperm hys hzs,
        beq_self_eq_true, if_true] at heads
      obtain ⟨rfl, -⟩ := List.cons.inj heads
      refine congrArg (y :: ·) (ih hS hperm.cons_inv hys.of_cons hzs.of_cons fun k hk => ?_)
      have hk := hclass k hk
      simp only [List.filter_cons] at hk
      split at hk
      · exact (List.cons.inj hk).2
      · exact hk

/-- **A list has one stable arrangement only.** -/
theorem Arranges.unique (h : PreorderOn order (· ∈ xs)) (hys : Arranges order xs ys)
    (hzs : Arranges order xs zs) : ys = zs :=
  eq_of_perm h (fun _ hy => hys.perm.subset hy) (hys.perm.trans hzs.perm.symm) hys.ordered
    hzs.ordered fun k hk => (hys.stable k hk).trans (hzs.stable k hk).symm

/-! ## Selecting from an arrangement -/

/-- **A selection of an arrangement is an arrangement**: items that are
left out neither put others out of order nor move them. -/
theorem Arranges.filter (h : Arranges order xs ys) (p : α → Bool) :
    Arranges order (xs.filter p) (ys.filter p) where
  perm := h.perm.filter p
  ordered := h.ordered.filter p
  stable k hk := by
    have hkxs : k ∈ xs := List.mem_of_mem_filter hk
    calc (ys.filter p).filter (fun x => order k x == .eq)
        = (ys.filter fun x => order k x == .eq).filter p := List.filter_comm ..
      _ = (xs.filter fun x => order k x == .eq).filter p := by rw [h.stable k hkxs]
      _ = (xs.filter p).filter fun x => order k x == .eq := List.filter_comm ..

/-! ## Backwards -/

/-- A preorder that is read backwards is one. -/
theorem PreorderOn.flip (h : PreorderOn order S) : PreorderOn (fun x y => order y x) S where
  swap a b := h.swap b a
  trans ha hb hc hab hbc := h.trans hc hb ha hbc hab

/-- **An arrangement backwards** is one by the order read backwards. -/
theorem Arranges.reverse (h : PreorderOn order S) (hys : Arranges (fun x y => order y x) xs ys) :
    Arranges order xs.reverse ys.reverse where
  perm := (List.reverse_perm ys).trans (hys.perm.trans (List.reverse_perm xs).symm)
  ordered := List.pairwise_reverse.2 hys.ordered
  stable k hk := by
    have hclass : ∀ x, (order k x == .eq) = (order x k == .eq) := fun x => by
      rw [h.swap x k]
      cases order x k <;> rfl
    simp only [hclass, List.filter_reverse]
    exact congrArg List.reverse (hys.stable k (List.mem_reverse.1 hk))

/-! ## Parts -/

/-- Items that are equal to an item of the preorder stand as they stood,
whether or not it is one of the list. -/
theorem Arranges.filter_eq (h : PreorderOn order S) (hys : Arranges order xs ys)
    (hxs : ∀ x ∈ xs, S x) {k : α} (hk : S k) :
    ys.filter (fun x => order k x == .eq) = xs.filter fun x => order k x == .eq := by
  by_cases hequal : ∃ x ∈ xs, order k x = .eq
  · obtain ⟨x, hx, hkx⟩ := hequal
    have hclass : ∀ y, S y → (order k y == .eq) = (order x y == .eq) := fun y hy => by
      rw [Bool.eq_iff_iff, beq_iff_eq, beq_iff_eq]
      exact ⟨h.eq_of_eq_of_eq hk (hxs x hx) hy hkx,
        h.eq_of_eq_of_eq (hxs x hx) hk hy (h.eq_comm hkx)⟩
    rw [List.filter_congr fun y hy => hclass y (hxs y hy),
      List.filter_congr fun y hy => hclass y (hxs y (hys.perm.subset hy))]
    exact hys.stable x hx
  · have hnone : ∀ y ∈ xs, ¬ (order k y == .eq) = true := fun y hy hky =>
      hequal ⟨y, hy, beq_iff_eq.1 hky⟩
    rw [List.filter_eq_nil_iff.2 hnone,
      List.filter_eq_nil_iff.2 fun y hy => hnone y (hys.perm.subset hy)]

/-- **Two lists that are arranged apart may be arranged together.** -/
theorem Arranges.append {xs' ys' : List α} (h : PreorderOn order (· ∈ xs ++ ys))
    (hxs : Arranges order xs xs') (hys : Arranges order ys ys')
    (hzs : Arranges order (xs' ++ ys') zs) : Arranges order (xs ++ ys) zs where
  perm := hzs.perm.trans (hxs.perm.append hys.perm)
  ordered := hzs.ordered
  stable k hk := by
    have hk' : k ∈ xs' ++ ys' := (hxs.perm.append hys.perm).symm.subset hk
    rw [hzs.stable k hk', List.filter_append, List.filter_append,
      hxs.filter_eq h (fun _ hx => List.mem_append_left _ hx) hk,
      hys.filter_eq h (fun _ hy => List.mem_append_right _ hy) hk]

end PathAccess.StableSort
