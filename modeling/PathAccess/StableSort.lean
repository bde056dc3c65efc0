/-!
# Stable sorting

A list is put in order, and items of equal order stay as they were. That is a promise for orders
that are preorders on the items. Where an order is none, a sort may leave the items in any
arrangement, and it may give up.

Few items are sorted by insertion. More are sorted in two halves, which are merged from both ends
at once, until either end has taken as many items as are in the first half. In a preorder the ends
meet: they take different items, and leave at most one between them. Where they take an item twice
the order has contradicted itself, and the sort gives up.
-/

namespace PathAccess.StableSort

variable {α : Type} (order : α → α → Ordering)

/-! ## Insertion -/

/-- Puts an item into a sorted list that is given from its end. -/
def insertFromEnd (x : α) : List α → List α
  | [] => [x]
  | y :: ys => if order x y = .lt then y :: insertFromEnd x ys else x :: y :: ys

/-- The items in order, each put behind the last one in front of it that is not greater. -/
def insertionSort (xs : List α) : List α :=
  (xs.foldl (fun sorted x => insertFromEnd order x sorted) []).reverse

/-! ## Merging from both ends -/

/-- The first `n` items of two lists in order, and of equal ones those of the first list first. -/
def takeLeast : Nat → List α → List α → List α
  | 0, _, _ => []
  | n + 1, [], ys => ys.take (n + 1)
  | n + 1, xs, [] => xs.take (n + 1)
  | n + 1, x :: xs, y :: ys =>
    if order y x = .lt then y :: takeLeast n (x :: xs) ys else x :: takeLeast n xs (y :: ys)

/-- The order of items that stand beside their places. -/
def placedOrder (x y : α × Nat) : Ordering :=
  order x.1 y.1

/-- What is taken from the front of two lists, beside the places in both. -/
def front (xs ys : List α) : List (α × Nat) :=
  takeLeast (placedOrder order) xs.length xs.zipIdx (ys.zipIdx xs.length)

/-- What is taken from the back of two lists, beside the places in both. -/
def back (xs ys : List α) : List (α × Nat) :=
  (takeLeast (fun x y => placedOrder order y x) xs.length (ys.zipIdx xs.length).reverse
    xs.zipIdx.reverse).reverse

/-- The items that are not among those taken, which their places tell apart. -/
def untaken (taken items : List (α × Nat)) : List (α × Nat) :=
  items.filter fun x => ∀ y ∈ taken, y.2 ≠ x.2

/-- Two lists merged from both ends, if no item is taken from both. -/
def meet (xs ys : List α) : Option (List α) :=
  let first := front order xs ys
  let last := back order xs ys
  if ∀ x ∈ first, ∀ y ∈ last, x.2 ≠ y.2 then
    some ((first ++ untaken (first ++ last) (xs ++ ys).zipIdx ++ last).map Prod.fst)
  else none

/-! ## Sorting -/

/-- The most items that are sorted by insertion. -/
def fewItems : Nat := 20

/-- The items in order, unless the order contradicts itself. -/
def sort (xs : List α) : Option (List α) :=
  if xs.length ≤ fewItems then some (insertionSort order xs)
  else do
    let first ← sort (xs.take (xs.length / 2))
    let second ← sort (xs.drop (xs.length / 2))
    meet order first second
termination_by xs.length
decreasing_by
  all_goals
    simp only [List.length_take, List.length_drop, fewItems] at *
    omega

theorem sort_of_length_le {xs : List α} (h : xs.length ≤ fewItems) :
    sort order xs = some (insertionSort order xs) := by
  rw [sort, if_pos h]

theorem sort_of_lt_length {xs : List α} (h : fewItems < xs.length) :
    sort order xs =
      (sort order (xs.take (xs.length / 2))).bind fun first =>
        (sort order (xs.drop (xs.length / 2))).bind (meet order first) := by
  rw [sort, if_neg (Nat.not_le.2 h)]
  rfl

end PathAccess.StableSort
