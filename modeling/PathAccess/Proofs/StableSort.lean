import Mathlib.Data.List.Nodup
import PathAccess.StableSort
import PathAccess.Proofs.StableSort.Arrangement
/-!
# Sorting gives the stable arrangement

Where the order is a preorder on the items of a list, sorting gives their
stable arrangement (`exists_sort`). Elsewhere it may give up, and what it
gives otherwise is a rearrangement and no more (`perm_of_sort`).

An item is inserted behind the last sorted item that is not greater, and
passes none that is equal to it. Of two sorted lists, the merge is the
arrangement of both together, and so is the merge of the two read
backwards; since there is only one, what is taken from the front and what
is taken from the back are two ends of one list, and they meet. The
places of the items tell them apart, so that nothing is left to chance
where items are equal.
-/

namespace PathAccess.StableSort

variable {α : Type} {order : α → α → Ordering} {S : α → Prop}
variable {x y z : α} {xs ys zs : List α}
variable {p : α → Bool}

/-! ## One insertion -/

/-- Putting an item in adds that item and no other. -/
theorem insertFromEnd_perm (x : α) (ys : List α) :
    (insertFromEnd order x ys).Perm (x :: ys) := by
  induction ys with
  | nil => exact .refl _
  | cons y ys ih =>
    simp only [insertFromEnd]
    split
    · exact (ih.cons y).trans (.swap x y ys)
    · exact .refl _

/-- **Putting an item in keeps sorted items in order**, from the end as
they are given. -/
theorem pairwise_insertFromEnd (h : PreorderOn order S) (hx : S x) (hys : ∀ y ∈ ys, S y)
    (hord : ys.Pairwise fun y z => order z y ≠ .gt) :
    (insertFromEnd order x ys).Pairwise fun y z => order z y ≠ .gt := by
  induction ys with
  | nil => exact List.pairwise_singleton _ x
  | cons y ys ih =>
    obtain ⟨hy, hys⟩ := List.forall_mem_cons.1 hys
    obtain ⟨hle, hord⟩ := List.pairwise_cons.1 hord
    simp only [insertFromEnd]
    split
    · next hlt =>
      refine List.pairwise_cons.2 ⟨fun z hz => ?_, ih hys hord⟩
      rcases List.mem_cons.1 ((insertFromEnd_perm x ys).subset hz) with rfl | hz
      · exact PreorderOn.ne_gt_of_lt hlt
      · exact hle z hz
    · next hge =>
      have hyx : order y x ≠ .gt := h.ne_gt_of_ne_lt hge
      refine List.pairwise_cons.2 ⟨fun z hz => ?_, List.pairwise_cons.2 ⟨hle, hord⟩⟩
      rcases List.mem_cons.1 hz with rfl | hz
      · exact hyx
      · exact h.trans (hys z hz) hy hx (hle z hz) hyx

/-- **An item passes none that is equal to it**: what it passes is not
selected together with it. -/
theorem filter_insertFromEnd (hp : ∀ y ∈ ys, p x = true → p y = true → order x y = .eq) :
    (insertFromEnd order x ys).filter p = (x :: ys).filter p := by
  induction ys with
  | nil => rfl
  | cons y ys ih =>
    obtain ⟨hy, hys⟩ := List.forall_mem_cons.1 hp
    simp only [insertFromEnd]
    split
    · next hlt =>
      have hone : ¬ (p x = true ∧ p y = true) := fun hboth => by
        rw [hy hboth.1 hboth.2] at hlt
        cases hlt
      rw [List.filter_cons, ih hys]
      cases hpx : p x <;> cases hpy : p y <;> simp_all
    · rfl

/-! ## Insertions in a row -/

theorem foldl_insertFromEnd_perm (xs ys : List α) :
    (xs.foldl (fun sorted x => insertFromEnd order x sorted) ys).Perm (xs ++ ys) := by
  induction xs generalizing ys with
  | nil => exact .refl _
  | cons x xs ih =>
    refine (ih (insertFromEnd order x ys)).trans ?_
    exact ((insertFromEnd_perm x ys).append_left xs).trans List.perm_middle

theorem pairwise_foldl_insertFromEnd (h : PreorderOn order S) (hxs : ∀ x ∈ xs, S x)
    (hys : ∀ y ∈ ys, S y) (hord : ys.Pairwise fun y z => order z y ≠ .gt) :
    (xs.foldl (fun sorted x => insertFromEnd order x sorted) ys).Pairwise
      fun y z => order z y ≠ .gt := by
  induction xs generalizing ys with
  | nil => exact hord
  | cons x xs ih =>
    obtain ⟨hx, hxs⟩ := List.forall_mem_cons.1 hxs
    refine ih hxs (fun y hy => ?_) (pairwise_insertFromEnd h hx hys hord)
    rcases List.mem_cons.1 ((insertFromEnd_perm x ys).subset hy) with rfl | hy
    · exact hx
    · exact hys y hy

theorem filter_foldl_insertFromEnd
    (hp : ∀ x ∈ xs ++ ys, ∀ y ∈ xs ++ ys, p x = true → p y = true → order x y = .eq) :
    (xs.foldl (fun sorted x => insertFromEnd order x sorted) ys).filter p =
      (xs.filter p).reverse ++ ys.filter p := by
  induction xs generalizing ys with
  | nil => rfl
  | cons x xs ih =>
    have hperm : (xs ++ insertFromEnd order x ys).Perm (x :: xs ++ ys) :=
      ((insertFromEnd_perm x ys).append_left xs).trans List.perm_middle
    have hinsert : (insertFromEnd order x ys).filter p = (x :: ys).filter p :=
      filter_insertFromEnd fun y hy => hp x List.mem_cons_self y (List.mem_append_right _ hy)
    rw [List.foldl_cons, ih fun a ha b hb => hp a (hperm.subset ha) b (hperm.subset hb), hinsert]
    cases hpx : p x <;> simp [hpx]

/-- Insertions rearrange. -/
theorem insertionSort_perm (order : α → α → Ordering) (xs : List α) :
    (insertionSort order xs).Perm xs :=
  (List.reverse_perm _).trans (by simpa using foldl_insertFromEnd_perm xs [])

/-- **Insertions arrange a list.** -/
theorem arranges_insertionSort (h : PreorderOn order (· ∈ xs)) :
    Arranges order xs (insertionSort order xs) where
  perm := insertionSort_perm order xs
  ordered := by
    refine List.pairwise_reverse.2 (pairwise_foldl_insertFromEnd h (fun _ hx => hx) ?_ .nil)
    exact fun y hy => absurd hy List.not_mem_nil
  stable k hk := by
    rw [insertionSort, List.filter_reverse, filter_foldl_insertFromEnd]
    · simp
    · intro x hx y hy hkx hky
      rw [List.append_nil] at hx hy
      exact h.eq_of_eq_of_eq hk hx hy (beq_iff_eq.1 hkx) (beq_iff_eq.1 hky)

/-! ## Merging -/

/-- Two lists merged. Of equal items, those of the first list come first. -/
def merge (order : α → α → Ordering) (xs ys : List α) : List α :=
  xs.merge ys fun x y => order y x != .lt

@[simp] theorem nil_merge : merge order [] ys = ys :=
  List.nil_merge ys

@[simp] theorem merge_nil : merge order xs [] = xs :=
  List.merge_right xs

theorem cons_merge_cons : merge order (x :: xs) (y :: ys) =
    if order y x = .lt then y :: merge order (x :: xs) ys else x :: merge order xs (y :: ys) := by
  rw [merge, List.cons_merge_cons]
  by_cases hlt : order y x = .lt <;> simp [hlt, merge]

theorem merge_perm (order : α → α → Ordering) (xs ys : List α) :
    (merge order xs ys).Perm (xs ++ ys) :=
  List.merge_perm_append _

/-- What is taken from two lists is the beginning of their merge. -/
theorem takeLeast_eq (n : Nat) (xs ys : List α) :
    takeLeast order n xs ys = (merge order xs ys).take n := by
  induction n generalizing xs ys with
  | zero => rfl
  | succ n ih =>
    cases xs with
    | nil => simp [takeLeast]
    | cons x xs =>
      cases ys with
      | nil => simp [takeLeast]
      | cons y ys =>
        rw [takeLeast, cons_merge_cons, ih, ih]
        split <;> rfl

/-- **The merge of lists that are in order is in order.** -/
theorem pairwise_merge (h : PreorderOn order S) (hxs : ∀ x ∈ xs, S x) (hys : ∀ y ∈ ys, S y)
    (hxsord : xs.Pairwise fun x y => order x y ≠ .gt)
    (hysord : ys.Pairwise fun x y => order x y ≠ .gt) :
    (merge order xs ys).Pairwise fun x y => order x y ≠ .gt := by
  induction xs generalizing ys with
  | nil => simpa using hysord
  | cons x xs ihxs =>
    induction ys with
    | nil => simpa using hxsord
    | cons y ys ihys =>
      obtain ⟨hx, hxs'⟩ := List.forall_mem_cons.1 hxs
      obtain ⟨hy, hys'⟩ := List.forall_mem_cons.1 hys
      obtain ⟨hxle, hxsord'⟩ := List.pairwise_cons.1 hxsord
      obtain ⟨hyle, hysord'⟩ := List.pairwise_cons.1 hysord
      rw [cons_merge_cons]
      split
      · next hlt =>
        have hyx : order y x ≠ .gt := PreorderOn.ne_gt_of_lt hlt
        refine List.pairwise_cons.2 ⟨fun z hz => ?_, ihys hys' hysord'⟩
        rcases List.mem_append.1 ((merge_perm order (x :: xs) ys).subset hz) with hz | hz
        · rcases List.mem_cons.1 hz with rfl | hz
          · exact hyx
          · exact h.trans hy hx (hxs' z hz) hyx (hxle z hz)
        · exact hyle z hz
      · next hge =>
        have hxy : order x y ≠ .gt := h.ne_gt_of_ne_lt hge
        refine List.pairwise_cons.2 ⟨fun z hz => ?_, ihxs hxs' hys hxsord' hysord⟩
        rcases List.mem_append.1 ((merge_perm order xs (y :: ys)).subset hz) with hz | hz
        · exact hxle z hz
        · rcases List.mem_cons.1 hz with rfl | hz
          · exact hxy
          · exact h.trans hx hy (hys' z hz) hxy (hyle z hz)

/-- **An item of the second list passes none of the first that is equal
to it**: what it passes is not selected together with it. -/
theorem filter_merge (h : PreorderOn order S) (hxs : ∀ x ∈ xs, S x) (hys : ∀ y ∈ ys, S y)
    (hxsord : xs.Pairwise fun x y => order x y ≠ .gt)
    (hp : ∀ x ∈ xs, ∀ y ∈ ys, p x = true → p y = true → order y x = .eq) :
    (merge order xs ys).filter p = xs.filter p ++ ys.filter p := by
  induction xs generalizing ys with
  | nil => simp
  | cons x xs ihxs =>
    induction ys with
    | nil => simp
    | cons y ys ihys =>
      obtain ⟨hx, hxs'⟩ := List.forall_mem_cons.1 hxs
      obtain ⟨hy, hys'⟩ := List.forall_mem_cons.1 hys
      obtain ⟨hxle, hxsord'⟩ := List.pairwise_cons.1 hxsord
      rw [cons_merge_cons]
      split
      · next hlt =>
        have hrest := ihys hys' fun a ha b hb => hp a ha b (List.mem_cons_of_mem y hb)
        rw [List.filter_cons, hrest, List.filter_cons (x := y)]
        split
        · next hpy =>
          -- an item that is equal to `y` would be less than `x`, in front of which none is
          have hnone : ∀ a ∈ x :: xs, ¬ p a = true := fun a ha hpa => by
            have hay : order a y ≠ .gt :=
              PreorderOn.ne_gt_of_eq (h.eq_comm (hp a ha y List.mem_cons_self hpa hpy))
            have hxy : order x y ≠ .gt := by
              rcases List.mem_cons.1 ha with rfl | ha
              · exact hay
              · exact h.trans hx (hxs' a ha) hy (hxle a ha) hay
            rw [h.swap y x, hlt] at hxy
            exact hxy rfl
          rw [List.filter_eq_nil_iff.2 hnone]
          rfl
        · rfl
      · have hrest := ihxs hxs' hys hxsord' fun a ha => hp a (List.mem_cons_of_mem x ha)
        rw [List.filter_cons, hrest, List.filter_cons (x := x)]
        split <;> rfl

/-- **The merge of lists that are in order arranges both together.** -/
theorem arranges_merge (h : PreorderOn order (· ∈ xs ++ ys))
    (hxsord : xs.Pairwise fun x y => order x y ≠ .gt)
    (hysord : ys.Pairwise fun x y => order x y ≠ .gt) :
    Arranges order (xs ++ ys) (merge order xs ys) where
  perm := merge_perm order xs ys
  ordered := pairwise_merge h (fun _ => List.mem_append_left ys) (fun _ => List.mem_append_right xs)
    hxsord hysord
  stable k hk := by
    rw [filter_merge h (fun _ => List.mem_append_left ys) (fun _ => List.mem_append_right xs)
      hxsord, List.filter_append]
    intro x hx y hy hkx hky
    exact h.eq_of_eq_of_eq hk (List.mem_append_right xs hy) (List.mem_append_left ys hx)
      (beq_iff_eq.1 hky) (beq_iff_eq.1 hkx)

/-- **Merging backwards merges**: it puts the greatest item last, of equal
ones that of the second list, and so on. -/
theorem reverse_merge_reverse (h : PreorderOn order (· ∈ xs ++ ys))
    (hxsord : xs.Pairwise fun x y => order x y ≠ .gt)
    (hysord : ys.Pairwise fun x y => order x y ≠ .gt) :
    (merge (fun x y => order y x) ys.reverse xs.reverse).reverse = merge order xs ys := by
  have hmem : ∀ x, x ∈ ys.reverse ++ xs.reverse → x ∈ xs ++ ys := fun x hx => by
    simpa [or_comm] using hx
  have hback := arranges_merge (h.flip.mono hmem) (List.pairwise_reverse.2 hysord)
    (List.pairwise_reverse.2 hxsord)
  have hboth := Arranges.reverse h hback
  rw [List.reverse_append, List.reverse_reverse, List.reverse_reverse] at hboth
  exact hboth.unique h (arranges_merge h hxsord hysord)

/-! ## Merging from both ends -/

theorem nodup_places (xs : List α) : (xs.zipIdx.map Prod.snd).Nodup := by
  rw [List.zipIdx_map_snd]
  exact List.nodup_range'

/-- What is left and what is taken are all items, if none is taken twice. -/
theorem untaken_append_perm {taken items : List (α × Nat)} (hplaces : (items.map Prod.snd).Nodup)
    (hmem : taken ⊆ items) (htaken : taken.Nodup) :
    (untaken taken items ++ taken).Perm items := by
  refine .trans (.append_left _ ?_) (List.filter_append_perm _ items)
  refine (List.perm_ext_iff_of_nodup htaken (hplaces.of_map.filter _)).2 fun x => ?_
  simp only [List.mem_filter, Bool.not_eq_true', decide_eq_false_iff_not, not_forall, not_not]
  constructor
  · exact fun hx => ⟨hmem hx, x, hx, rfl⟩
  · rintro ⟨hx, y, hy, hplace⟩
    exact List.inj_on_of_nodup_map hplaces (hmem hy) hx hplace ▸ hy

/-- Two lists merged from the front, beside the places in both. -/
def fromFront (order : α → α → Ordering) (xs ys : List α) : List (α × Nat) :=
  merge (placedOrder order) xs.zipIdx (ys.zipIdx xs.length)

/-- Two lists merged from the back, beside the places in both. -/
def fromBack (order : α → α → Ordering) (xs ys : List α) : List (α × Nat) :=
  (merge (fun x y => placedOrder order y x) (ys.zipIdx xs.length).reverse
    xs.zipIdx.reverse).reverse

theorem fromFront_perm (order : α → α → Ordering) (xs ys : List α) :
    (fromFront order xs ys).Perm (xs ++ ys).zipIdx := by
  rw [List.zipIdx_append, Nat.zero_add]
  exact merge_perm _ _ _

theorem fromBack_perm (order : α → α → Ordering) (xs ys : List α) :
    (fromBack order xs ys).Perm (xs ++ ys).zipIdx := by
  rw [List.zipIdx_append, Nat.zero_add]
  refine (List.reverse_perm _).trans ((merge_perm _ _ _).trans ?_)
  rw [← List.reverse_append]
  exact List.reverse_perm _

theorem front_eq (order : α → α → Ordering) (xs ys : List α) :
    front order xs ys = (fromFront order xs ys).take xs.length :=
  takeLeast_eq _ _ _

theorem back_eq (order : α → α → Ordering) (xs ys : List α) :
    back order xs ys = (fromBack order xs ys).drop ys.length := by
  rw [back, takeLeast_eq, List.reverse_take, (merge_perm _ _ _).length_eq, fromBack]
  simp

theorem front_sublist (order : α → α → Ordering) (xs ys : List α) :
    (front order xs ys).Sublist (fromFront order xs ys) := by
  rw [front_eq]
  exact List.take_sublist _ _

theorem back_sublist (order : α → α → Ordering) (xs ys : List α) :
    (back order xs ys).Sublist (fromBack order xs ys) := by
  rw [back_eq]
  exact List.drop_sublist _ _

theorem map_fst_fromFront (order : α → α → Ordering) (xs ys : List α) :
    (fromFront order xs ys).map Prod.fst = merge order xs ys := by
  have hmap : (fromFront order xs ys).map Prod.fst =
      merge order (xs.zipIdx.map Prod.fst) ((ys.zipIdx xs.length).map Prod.fst) :=
    List.map_merge fun _ _ _ _ => rfl
  rw [hmap, List.zipIdx_map_fst, List.zipIdx_map_fst]

/-- **Where the ends take different items, nothing is lost.** -/
theorem ends_perm (hmeet : ∀ x ∈ front order xs ys, ∀ y ∈ back order xs ys, x.2 ≠ y.2) :
    (front order xs ys ++ untaken (front order xs ys ++ back order xs ys) (xs ++ ys).zipIdx ++
      back order xs ys).Perm (xs ++ ys).zipIdx := by
  have hplaces := nodup_places (xs ++ ys)
  have hfront := (fromFront_perm order xs ys).nodup_iff.2 hplaces.of_map
  have hback := (fromBack_perm order xs ys).nodup_iff.2 hplaces.of_map
  have htaken : (front order xs ys ++ back order xs ys).Nodup := by
    refine List.nodup_append.2 ⟨?_, ?_, fun x hx y hy hxy => hmeet x hx y hy (congrArg _ hxy)⟩
    · exact hfront.sublist (front_sublist order xs ys)
    · exact hback.sublist (back_sublist order xs ys)
  have hmem : front order xs ys ++ back order xs ys ⊆ (xs ++ ys).zipIdx := fun x hx => by
    rcases List.mem_append.1 hx with hx | hx
    · exact (fromFront_perm order xs ys).subset ((front_sublist order xs ys).subset hx)
    · exact (fromBack_perm order xs ys).subset ((back_sublist order xs ys).subset hx)
  refine .trans ?_ (untaken_append_perm hplaces hmem htaken)
  rw [← List.append_assoc]
  exact List.perm_append_comm.append_right _

/-- **What is merged from both ends is a rearrangement.** -/
theorem perm_of_meet (h : meet order xs ys = some zs) : zs.Perm (xs ++ ys) := by
  simp only [meet] at h
  split at h
  · next hmeet =>
    cases h
    have hperm := (ends_perm hmeet).map Prod.fst
    rwa [List.zipIdx_map_fst] at hperm
  · cases h

theorem PreorderOn.placed (h : PreorderOn order S) :
    PreorderOn (placedOrder order) fun x => S x.1 where
  swap a b := h.swap a.1 b.1
  trans := h.trans

/-- **In a preorder, both ends are ends of one list.** -/
theorem fromBack_eq_fromFront (h : PreorderOn order (· ∈ xs ++ ys))
    (hxsord : xs.Pairwise fun x y => order x y ≠ .gt)
    (hysord : ys.Pairwise fun x y => order x y ≠ .gt) :
    fromBack order xs ys = fromFront order xs ys := by
  have hplaced : ∀ (zs : List α) (n : Nat), (zs.Pairwise fun x y => order x y ≠ .gt) →
      (zs.zipIdx n).Pairwise fun x y => placedOrder order x y ≠ .gt := fun zs n hzs => by
    rw [← List.zipIdx_map_fst n zs, List.pairwise_map] at hzs
    exact hzs
  refine reverse_merge_reverse (h.placed.mono fun x hx => ?_) (hplaced xs 0 hxsord)
    (hplaced ys xs.length hysord)
  have hx := List.mem_map_of_mem (f := Prod.fst) hx
  rwa [List.map_append, List.zipIdx_map_fst, List.zipIdx_map_fst] at hx

/-- Both ends leave at most one item between them, where the second list
has as many items as the first or one more. -/
theorem exists_between (h : PreorderOn order (· ∈ xs ++ ys))
    (hxsord : xs.Pairwise fun x y => order x y ≠ .gt)
    (hysord : ys.Pairwise fun x y => order x y ≠ .gt)
    (hle : xs.length ≤ ys.length) (hge : ys.length ≤ xs.length + 1) :
    ∃ mid, mid.length ≤ 1 ∧
      fromFront order xs ys = front order xs ys ++ mid ++ back order xs ys := by
  have hback : back order xs ys =
      ((fromFront order xs ys).drop xs.length).drop (ys.length - xs.length) := by
    rw [back_eq, fromBack_eq_fromFront h hxsord hysord, List.drop_drop, Nat.add_sub_cancel' hle]
  refine ⟨((fromFront order xs ys).drop xs.length).take (ys.length - xs.length), ?_, ?_⟩
  · rw [List.length_take]
    omega
  · rw [hback, front_eq, List.append_assoc, List.take_append_drop, List.take_append_drop]

/-- **In a preorder the ends meet**, and what is merged from both is what
is merged from one. -/
theorem meet_eq_merge (h : PreorderOn order (· ∈ xs ++ ys))
    (hxsord : xs.Pairwise fun x y => order x y ≠ .gt)
    (hysord : ys.Pairwise fun x y => order x y ≠ .gt)
    (hle : xs.length ≤ ys.length) (hge : ys.length ≤ xs.length + 1) :
    meet order xs ys = some (merge order xs ys) := by
  obtain ⟨mid, hmid, hparts⟩ := exists_between h hxsord hysord hle hge
  have hmeet : ∀ x ∈ front order xs ys, ∀ y ∈ back order xs ys, x.2 ≠ y.2 := fun x hx y hy => by
    have hplaces : ((fromFront order xs ys).map Prod.snd).Nodup :=
      ((fromFront_perm order xs ys).map Prod.snd).nodup_iff.2 (nodup_places _)
    rw [hparts, List.map_append, List.nodup_append] at hplaces
    exact hplaces.2.2 _ (List.mem_map_of_mem (List.mem_append_left mid hx)) _
      (List.mem_map_of_mem hy)
  have huntaken : untaken (front order xs ys ++ back order xs ys) (xs ++ ys).zipIdx = mid := by
    have hperm := (ends_perm hmeet).trans (fromFront_perm order xs ys).symm
    rw [hparts, List.perm_append_right_iff, List.perm_append_left_iff] at hperm
    match mid, hmid with
    | [], _ => exact hperm.eq_nil
    | [_], _ => exact List.perm_singleton.1 hperm
  simp only [meet, if_pos hmeet, huntaken, ← hparts, map_fst_fromFront]

/-! ## Sorting -/

/-- Many items are sorted in two parts with fewer items. -/
theorem length_halves_lt (hmany : fewItems < xs.length) :
    (xs.take (xs.length / 2)).length < xs.length ∧
      (xs.drop (xs.length / 2)).length < xs.length := by
  simp only [List.length_take, List.length_drop, fewItems] at *
  omega

/-- **What sorting gives is a rearrangement**, whatever the order is. -/
theorem perm_of_sort (h : sort order xs = some ys) : ys.Perm xs := by
  induction hn : xs.length using Nat.strongRecOn generalizing xs ys with
  | ind n ih =>
    subst hn
    rcases Nat.lt_or_ge fewItems xs.length with hmany | hfew
    · rw [sort_of_lt_length order hmany] at h
      obtain ⟨first, hfirst, h⟩ := Option.bind_eq_some_iff.1 h
      obtain ⟨last, hlast, hmeet⟩ := Option.bind_eq_some_iff.1 h
      obtain ⟨htake, hdrop⟩ := length_halves_lt hmany
      have hparts := (ih _ htake hfirst rfl).append (ih _ hdrop hlast rfl)
      rw [List.take_append_drop] at hparts
      exact (perm_of_meet hmeet).trans hparts
    · rw [sort_of_length_le order hfew] at h
      cases h
      exact insertionSort_perm order xs

/-- **Sorting arranges a list**, where its items are in a preorder. -/
theorem exists_sort (h : PreorderOn order (· ∈ xs)) :
    ∃ ys, sort order xs = some ys ∧ Arranges order xs ys := by
  induction hn : xs.length using Nat.strongRecOn generalizing xs with
  | ind n ih =>
    subst hn
    rcases Nat.lt_or_ge fewItems xs.length with hmany | hfew
    · obtain ⟨htake, hdrop⟩ := length_halves_lt hmany
      obtain ⟨first, hfirst, harranged⟩ := ih _ htake (h.mono fun _ => List.mem_of_mem_take) rfl
      obtain ⟨last, hlast, harranged'⟩ := ih _ hdrop (h.mono fun _ => List.mem_of_mem_drop) rfl
      have hparts := harranged.perm.append harranged'.perm
      rw [List.take_append_drop] at hparts
      have hfirst_length := harranged.perm.length_eq
      have hlast_length := harranged'.perm.length_eq
      simp only [List.length_take, List.length_drop] at hfirst_length hlast_length
      have hpre : PreorderOn order (· ∈ first ++ last) := h.mono fun _ hx => hparts.subset hx
      refine ⟨merge order first last, ?_, ?_⟩
      · rw [sort_of_lt_length order hmany, hfirst, hlast]
        exact meet_eq_merge hpre harranged.ordered harranged'.ordered (by omega) (by omega)
      · have hmerge := arranges_merge hpre harranged.ordered harranged'.ordered
        rw [← List.take_append_drop (xs.length / 2) xs] at h ⊢
        exact harranged.append h harranged' hmerge
    · exact ⟨_, sort_of_length_le order hfew, arranges_insertionSort h⟩

/-- It is the arrangement that sorting gives. -/
theorem sort_eq_some (h : PreorderOn order (· ∈ xs)) (hys : Arranges order xs ys) :
    sort order xs = some ys := by
  obtain ⟨sorted, hsort, harranges⟩ := exists_sort h
  rw [hsort, harranges.unique h hys]

/-- **Sorting and selecting may change places.** -/
theorem sort_filter (h : PreorderOn order (· ∈ xs)) (hys : Arranges order xs ys) (p : α → Bool) :
    sort order (xs.filter p) = some (ys.filter p) :=
  sort_eq_some (h.mono fun _ hx => List.mem_of_mem_filter hx) (hys.filter p)

end PathAccess.StableSort
