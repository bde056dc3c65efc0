import PathAccess.Proofs.Collection
/-!
# Filtering and sorting by accessors may change places

A list is sorted by the values of one accessor and filtered by those of
another. Sorting moves every item together with its key and keeps items
of equal keys as they stood, and filtering drops items and moves none;
so it does not matter which of the two comes first. Items may stand in
the list more than once, and keys may be equal at will.

Filtering is all or nothing as sorting is: where one item has no key, the
first such item decides, whatever was kept before it.
-/

namespace PathAccess.Accessor

variable {α : Type} [Projected α] {a b : Accessor} {condition : Json → Bool}
variable {items : List α} {pairs : List (α × Json)} {e : AccessError}

/-! ## The items that are kept -/

/-- Whether an item has a key that satisfies the condition. -/
def keeps (b : Accessor) (condition : Json → Bool) (item : α) : Bool :=
  match b.key item with
  | .ok key => condition key
  | .error _ => false

theorem keeps_of_key {item : α} {key : Json} (h : b.key item = .ok key) :
    b.keeps condition item = condition key := by
  simp only [keeps, h]

/-- The keys that items stand beside are those they get. -/
theorem Keyed.keyed_eq (h : Keyed a items pairs) : a.keyed items = .ok pairs := by
  obtain ⟨rfl, hkeys⟩ := h
  induction pairs with
  | nil => rfl
  | cons pair pairs ih =>
    obtain ⟨hpair, hpairs⟩ := List.forall_mem_cons.1 hkeys
    rw [List.map_cons, keyed, hpair, ih hpairs]
    rfl

/-- A selection of the items has a selection of the keys. -/
theorem Keyed.filter (h : Keyed a items pairs) (p : α → Bool) :
    Keyed a (items.filter p) (pairs.filter fun pair => p pair.1) where
  items := by
    rw [← h.items, List.filter_map]
    rfl
  keys pair hpair := h.keys pair (List.mem_of_mem_filter hpair)

/-- **Filtering keeps the items whose keys satisfy the condition**, where
all have keys. -/
theorem filterBy_eq (h : ∀ item ∈ items, ∃ key, b.key item = .ok key) :
    b.filterBy condition items = .ok (items.filter (b.keeps condition)) := by
  obtain ⟨pairs, hkeyed, hpairs⟩ := exists_keyed h
  have hkeeps : ∀ pair ∈ pairs, condition pair.2 = b.keeps condition pair.1 :=
    fun pair hpair => (keeps_of_key (hpairs.keys pair hpair)).symm
  have hkept : pairs.filter (fun pair => condition pair.2) =
      pairs.filter fun pair => b.keeps condition pair.1 := List.filter_congr hkeeps
  rw [filterBy, hkeyed, ← (hpairs.filter (b.keeps condition)).items, ← hkept]
  rfl

/-- The first item without a key fails the filter as it fails the keys. -/
theorem filterBy_of_error (h : b.keyed items = .error e) :
    b.filterBy condition items = .error e := by
  rw [filterBy, h]
  rfl

/-! ## The order of the two -/

/-- The items in order of their keys. -/
theorem Keyed.sortBy_eq {sorted : List (α × Json)} (h : Keyed a items pairs)
    (hsort : StableSort.sort keyOrder pairs = some sorted) :
    a.sortBy items = .ok (sorted.map Prod.fst) := by
  rw [sortBy_of_keyed h.keyed_eq, hsort]

/-- **Filtering and sorting may change places.** Where every item has a
key for either accessor and the total order is transitive on the keys
that are sorted by, both ways give one list: the sorted items less those
that the filter drops. Where an item has no key to filter by, the filter
gives the error of the first such item, whatever its condition says of
the items before. -/
theorem filterBy_sortBy_comm (a b : Accessor) (condition : Json → Bool) (items : List α) :
    (∀ pairs, Keyed a items pairs → Json.TransitiveOn (pairs.map Prod.snd) →
      (∀ item ∈ items, ∃ key, b.key item = .ok key) →
      ∃ sorted kept result,
        a.sortBy items = .ok sorted ∧ b.filterBy condition sorted = .ok result ∧
        b.filterBy condition items = .ok kept ∧ a.sortBy kept = .ok result) ∧
    ((∃ item ∈ items, ∃ e, b.key item = .error e) →
      ∃ e, FailsFirst b items e ∧ b.filterBy condition items = .error e) := by
  constructor
  · intro pairs hpairs htrans hkeys
    obtain ⟨sorted, hsort, harranges⟩ := StableSort.exists_sort (preorderOn_keyOrder htrans)
    have hkept := (hpairs.filter (b.keeps condition)).sortBy_eq
      (StableSort.sort_filter (preorderOn_keyOrder htrans) harranges _)
    -- sorting moves the items, so each of them still has its key to filter by
    have hkeys' : ∀ item ∈ sorted.map Prod.fst, ∃ key, b.key item = .ok key := by
      intro item hitem
      refine hkeys item (hpairs.items ▸ ?_)
      exact (harranges.perm.map Prod.fst).subset hitem
    refine ⟨_, _, _, hpairs.sortBy_eq hsort, filterBy_eq hkeys', filterBy_eq hkeys, ?_⟩
    rw [hkept, List.filter_map]
    rfl
  · intro hfails
    obtain ⟨e, hkeyed, hfirst⟩ := exists_failsFirst hfails
    exact ⟨e, hfirst, filterBy_of_error hkeyed⟩

/-! ## Rows by name, without one of them -/

/-- The accessor of `.id`. -/
def byId : Accessor :=
  ⟨".id", Plan.root.access (.lookup (.member "id")), .any, false⟩

/-- Every id but `3`. -/
def notThree (key : Json) : Bool :=
  Comparison.notEqual.test key (.string "3")

/-- The rows beside their names. -/
theorem keyed_rows : Keyed byName rows
    [(row "1" (.string "b"), .string "b"), (row "2" .null, .null),
      (row "3" (.string "a"), .string "a"), (row "4" (.string "a"), .string "a")] where
  items := rfl
  keys := by
    simp only [List.forall_mem_cons]
    exact ⟨rfl, rfl, rfl, rfl, fun _ h => absurd h List.not_mem_nil⟩

/-- The rows are sorted by name and the third is dropped, in either
order. With a row that is null in the list, nothing is kept at all. -/
theorem filterBy_sortBy_comm_rows :
    (∃ sorted kept, byName.sortBy rows = .ok sorted ∧ byId.filterBy notThree rows = .ok kept ∧
      byId.filterBy notThree sorted =
        .ok [row "2" .null, row "4" (.string "a"), row "1" (.string "b")] ∧
      byName.sortBy kept = .ok [row "2" .null, row "4" (.string "a"), row "1" (.string "b")]) ∧
    ∃ e, FailsFirst byId (rows ++ [.null]) e ∧
      byId.filterBy notThree (rows ++ [.null]) = .error e := by
  constructor
  · have hids : ∀ item ∈ rows, ∃ key, byId.key item = .ok key := by
      simp only [rows, List.forall_mem_cons]
      exact ⟨⟨_, rfl⟩, ⟨_, rfl⟩, ⟨_, rfl⟩, ⟨_, rfl⟩, fun _ h => absurd h List.not_mem_nil⟩
    have htrans := Json.transitiveOn_of_isWhole (numbersIn_of_keyed_rows keyed_rows)
    obtain ⟨sorted, kept, result, hsorted, hresult, hkept, hresult'⟩ :=
      (filterBy_sortBy_comm byName byId notThree rows).1 _ keyed_rows htrans hids
    obtain rfl : result = [row "2" .null, row "4" (.string "a"), row "1" (.string "b")] := by
      rw [sortBy_rows] at hsorted
      cases hsorted
      exact (Except.ok.inj hresult).symm
    exact ⟨sorted, kept, hsorted, hkept, hresult, hresult'⟩
  · refine (filterBy_sortBy_comm byName byId notThree (rows ++ [.null])).2 ⟨.null, ?_, _, rfl⟩
    exact List.mem_append_right _ List.mem_cons_self

end PathAccess.Accessor
