import PathAccess.Proofs.Json.TotalOrder
import PathAccess.Proofs.StableSort
import PathAccess.Session
/-!
# Sorting by keys is stable, or leaves all as it was

Every item gets its key before any item moves. The first item without a
key decides: sorting gives its error, and a session keeps its items. Else
the items move together with their keys, and where the total order is
transitive on the keys the outcome is the stable arrangement of the list.
Doubles are what may spoil transitivity, so keys without doubles are
always arranged.

Where transitivity is spoilt the sort may give up, and the items it has
taken are lost. Two neighbouring integers and the double that is equal to
both are enough for that, in a list of 21 rows.
-/

namespace PathAccess

/-! ## Keys on which the total order is transitive -/

/-- A number that is no double. -/
def Number.IsWhole (n : Number) : Prop :=
  ∃ w, n = .whole w

theorem Number.separated_isWhole : Separated IsWhole := by
  rintro m n d - - ⟨w, hw⟩
  cases hw

namespace Json

/-- The total order is transitive on the values of a list. -/
def TransitiveOn (values : List Json) : Prop :=
  ∀ a ∈ values, ∀ b ∈ values, ∀ c ∈ values,
    a.totalOrder b ≠ .gt → b.totalOrder c ≠ .gt → a.totalOrder c ≠ .gt

/-- **Values without doubles** are such, at any depth of arrays. -/
theorem transitiveOn_of_isWhole {values : List Json}
    (h : ∀ j ∈ values, j.NumbersIn Number.IsWhole) : TransitiveOn values :=
  fun a ha b hb c hc hab hbc =>
    (totalOrder_composes Number.separated_isWhole (h a ha) (h b hb) (h c hc)).ne_gt hab hbc

end Json

namespace Accessor

variable {α : Type} [Projected α] {a : Accessor} {item : α} {items : List α} {e : AccessError}
variable {pairs : List (α × Json)}

/-! ## The keys of all items -/

/-- The error of the first item that has no key. -/
def FailsFirst (a : Accessor) (items : List α) (e : AccessError) : Prop :=
  ∃ before item behind, items = before ++ item :: behind ∧
    (∀ i ∈ before, ∃ key, a.key i = .ok key) ∧ a.key item = .error e

/-- Items beside the keys that an accessor reads from them. -/
structure Keyed (a : Accessor) (items : List α) (pairs : List (α × Json)) : Prop where
  items : pairs.map Prod.fst = items
  keys : ∀ pair ∈ pairs, a.key pair.1 = .ok pair.2

theorem FailsFirst.cons {key : Json} (hkey : a.key item = .ok key) (h : FailsFirst a items e) :
    FailsFirst a (item :: items) e := by
  obtain ⟨before, failing, behind, rfl, hbefore, hfailing⟩ := h
  exact ⟨item :: before, failing, behind, rfl, List.forall_mem_cons.2 ⟨⟨key, hkey⟩, hbefore⟩,
    hfailing⟩

theorem Keyed.cons {key : Json} (hkey : a.key item = .ok key) (h : Keyed a items pairs) :
    Keyed a (item :: items) ((item, key) :: pairs) where
  items := congrArg (item :: ·) h.items
  keys := List.forall_mem_cons.2 ⟨hkey, h.keys⟩

/-- **All items get their keys, or the first one without a key fails.** -/
theorem keyed_spec (a : Accessor) (items : List α) :
    (∃ pairs, a.keyed items = .ok pairs ∧ Keyed a items pairs) ∨
      ∃ e, a.keyed items = .error e ∧ FailsFirst a items e := by
  induction items with
  | nil => exact .inl ⟨[], rfl, rfl, fun _ hpair => absurd hpair List.not_mem_nil⟩
  | cons item items ih =>
    cases hkey : a.key item with
    | error e =>
      refine .inr ⟨e, by simp [keyed, hkey], [], item, items, rfl, ?_, hkey⟩
      exact fun _ hi => absurd hi List.not_mem_nil
    | ok key =>
      rcases ih with ⟨pairs, hkeyed, hpairs⟩ | ⟨e, hkeyed, hfails⟩
      · exact .inl ⟨_, by simp [keyed, hkey, hkeyed, Except.map], hpairs.cons hkey⟩
      · exact .inr ⟨e, by simp [keyed, hkey, hkeyed, Except.map], hfails.cons hkey⟩

/-- Items that all have keys get them. -/
theorem exists_keyed (h : ∀ item ∈ items, ∃ key, a.key item = .ok key) :
    ∃ pairs, a.keyed items = .ok pairs ∧ Keyed a items pairs := by
  rcases keyed_spec a items with hok | ⟨e, -, before, item, behind, rfl, -, hfailing⟩
  · exact hok
  · obtain ⟨key, hkey⟩ := h item (List.mem_append_right _ List.mem_cons_self)
    rw [hfailing] at hkey
    cases hkey

/-- An item without a key is the first one, or another stands in front. -/
theorem exists_failsFirst (h : ∃ item ∈ items, ∃ e, a.key item = .error e) :
    ∃ e, a.keyed items = .error e ∧ FailsFirst a items e := by
  rcases keyed_spec a items with ⟨pairs, -, rfl, hkeys⟩ | hfails
  · obtain ⟨_, hitem, e, he⟩ := h
    obtain ⟨pair, hpair, rfl⟩ := List.mem_map.1 hitem
    rw [hkeys pair hpair] at he
    cases he
  · exact hfails

/-! ## Sorting -/

/-- The order of items by their keys. -/
def keyOrder (x y : α × Json) : Ordering :=
  x.2.totalOrder y.2

omit [Projected α] in
/-- It is a preorder on items where the total order is transitive on the
keys. -/
theorem preorderOn_keyOrder (h : Json.TransitiveOn (pairs.map Prod.snd)) :
    StableSort.PreorderOn (keyOrder (α := α)) (· ∈ pairs) where
  swap x y := Json.totalOrder_swap x.2 y.2
  trans hx hy hz := h _ (List.mem_map_of_mem hx) _ (List.mem_map_of_mem hy) _
    (List.mem_map_of_mem hz)

/-- A list whose items have no keys is left alone. -/
theorem sortBy_of_error (h : a.keyed items = .error e) :
    a.sortBy items = .error (.noKey e) := by
  rw [sortBy, h]

/-- Items beside their keys are sorted by the order of the keys. -/
theorem sortBy_of_keyed (h : a.keyed items = .ok pairs) :
    a.sortBy items = match StableSort.sort keyOrder pairs with
      | some sorted => .ok (sorted.map Prod.fst)
      | none => .error .gaveUp := by
  rw [sortBy, h]
  rfl

/-- **Sorting by keys is stable, and all or nothing**, wherever the total
order is transitive on the keys. If some item has no key, the outcome is
the error of the first such item. If all have keys and the order is
transitive on them, as it is on all keys without doubles, the outcome is
the stable arrangement by key, in which the items stand together with
their keys, and no other way of sorting has another. Where the order is
not transitive, the outcome is some rearrangement, or the sort gives up. A
session that sorts takes the items it gets, is left as it was by an item
without a key, and is left without items by a sort that gives up. -/
theorem sortBy_stable_or_failed (a : Accessor) (items : List α) :
    ((∃ item ∈ items, ∃ e, a.key item = .error e) →
      ∃ e, FailsFirst a items e ∧ a.sortBy items = .error (.noKey e)) ∧
    ((∀ item ∈ items, ∃ key, a.key item = .ok key) →
      ∃ pairs, Keyed a items pairs ∧
        (Json.TransitiveOn (pairs.map Prod.snd) →
          ∃ sorted : List (α × Json), a.sortBy items = .ok (sorted.map Prod.fst) ∧
            StableSort.Arranges keyOrder pairs sorted ∧
            ∀ other, StableSort.Arranges keyOrder pairs other → other = sorted) ∧
        (a.sortBy items = .error .gaveUp ∨
          ∃ sorted : List (α × Json), a.sortBy items = .ok (sorted.map Prod.fst) ∧
            sorted.Perm pairs)) ∧
    (∀ keys : List Json, (∀ key ∈ keys, key.NumbersIn Number.IsWhole) →
      Json.TransitiveOn keys) ∧
    ∀ (s : Session) (name : String), s.accessor? name = some a →
      (∀ e, a.sortBy s.items = .error (.noKey e) → s.run (.sort name) = (s, .notEvaluated e)) ∧
      (a.sortBy s.items = .error .gaveUp →
        s.run (.sort name) = ({ s with items := [] }, .gaveUp)) ∧
      ∀ sorted, a.sortBy s.items = .ok sorted →
        s.run (.sort name) = ({ s with items := sorted }, .sorted) := by
  refine ⟨fun h => ?_, fun h => ?_, fun _ => Json.transitiveOn_of_isWhole, fun s name hname => ?_⟩
  · obtain ⟨e, hkeyed, hfails⟩ := exists_failsFirst h
    exact ⟨e, hfails, sortBy_of_error hkeyed⟩
  · obtain ⟨pairs, hkeyed, hpairs⟩ := exists_keyed h
    refine ⟨pairs, hpairs, fun ht => ?_, ?_⟩
    · obtain ⟨sorted, hsort, harranges⟩ := StableSort.exists_sort (preorderOn_keyOrder ht)
      refine ⟨sorted, ?_, harranges, fun _ hother => ?_⟩
      · rw [sortBy_of_keyed hkeyed, hsort]
      · exact hother.unique (preorderOn_keyOrder ht) harranges
    · cases hsort : StableSort.sort keyOrder pairs with
      | none =>
        left
        rw [sortBy_of_keyed hkeyed, hsort]
      | some sorted =>
        right
        refine ⟨sorted, ?_, StableSort.perm_of_sort hsort⟩
        rw [sortBy_of_keyed hkeyed, hsort]
  · simp only [Session.run, Session.withAccessor, hname]
    refine ⟨fun e he => ?_, fun hgaveUp => ?_, fun sorted hsorted => ?_⟩
    · rw [he, Session.withSorted]
    · rw [hgaveUp, Session.withSorted]
    · rw [hsorted, Session.withSorted]

/-! ## Rows by name -/

/-- The accessor of `.name`. -/
def byName : Accessor :=
  ⟨".name", Plan.root.access (.lookup (.member "name")), .any, false⟩

/-- A row with a name. -/
def row (id : String) (name : Json) : Json :=
  .object [("id", .string id), ("name", name)]

/-- Four rows, two of which have one name. -/
def rows : List Json :=
  [row "1" (.string "b"), row "2" .null, row "3" (.string "a"), row "4" (.string "a")]

theorem key_row (id : String) (name : Json) : byName.key (row id name) = .ok name := rfl

/-- They are in order with null first and equal names as they stood. -/
theorem sortBy_rows : byName.sortBy rows = .ok [row "2" .null, row "3" (.string "a"),
    row "4" (.string "a"), row "1" (.string "b")] := by
  have hkeyed : byName.keyed rows =
      .ok (rows.zip [.string "b", .null, .string "a", .string "a"]) := rfl
  rw [sortBy_of_keyed hkeyed, StableSort.sort_of_length_le _ (by decide)]
  rfl

/-- The names of the rows are null and strings. -/
theorem numbersIn_of_keyed_rows {pairs : List (Json × Json)} (h : Keyed byName rows pairs) :
    ∀ j ∈ pairs.map Prod.snd, j.NumbersIn Number.IsWhole := by
  intro j hj
  obtain ⟨pair, hpair, rfl⟩ := List.mem_map.1 hj
  have hkey := h.keys pair hpair
  have hrow : pair.1 ∈ rows := h.items ▸ List.mem_map_of_mem hpair
  simp only [rows, List.mem_cons, List.not_mem_nil, or_false] at hrow
  rcases hrow with hrow | hrow | hrow | hrow <;>
    (rw [hrow, key_row] at hkey
     rw [← Except.ok.inj hkey]
     rintro n ⟨⟩)

/-- The rows are sorted with null first and equal names as they stood,
and with a row in front that is null itself they are not sorted at all. -/
theorem sortBy_stable_or_failed_rows :
    (∃ pairs sorted, Keyed byName rows pairs ∧ byName.sortBy rows = .ok (sorted.map Prod.fst) ∧
        sorted.map Prod.fst = [row "2" .null, row "3" (.string "a"), row "4" (.string "a"),
          row "1" (.string "b")] ∧
        StableSort.Arranges keyOrder pairs sorted) ∧
      ∃ e, FailsFirst byName (.null :: rows) e ∧
        byName.sortBy (.null :: rows) = .error (.noKey e) := by
  constructor
  · have hkeys : ∀ row ∈ rows, ∃ key, byName.key row = .ok key := by
      simp only [rows, List.forall_mem_cons]
      exact ⟨⟨_, rfl⟩, ⟨_, rfl⟩, ⟨_, rfl⟩, ⟨_, rfl⟩, fun _ h => absurd h List.not_mem_nil⟩
    obtain ⟨-, hsorts, hwhole, -⟩ := sortBy_stable_or_failed byName rows
    obtain ⟨pairs, hkeyed, hsorted, -⟩ := hsorts hkeys
    obtain ⟨sorted, hsort, harranges, -⟩ := hsorted (hwhole _ (numbersIn_of_keyed_rows hkeyed))
    exact ⟨pairs, sorted, hkeyed, hsort, Except.ok.inj (hsort.symm.trans sortBy_rows), harranges⟩
  · obtain ⟨hfails, -⟩ := sortBy_stable_or_failed byName (.null :: rows)
    exact hfails ⟨.null, List.mem_cons_self, _, rfl⟩

/-! ## Rows that cannot be put in order -/

/-- An integer, the double that is equal to it, and the next integer, which
is equal to the double as well, again and again. -/
def looseNames : List Json :=
  (List.replicate 7 [.number (.whole Json.evenWhole), .number (.float Json.evenDouble),
    .number (.whole Json.oddWhole)]).flatten

/-- Rows of these names. -/
def looseRows : List Item :=
  looseNames.map fun name => .data (.object [("name", name)])

/-- A session with these rows. -/
def looseSession : Session :=
  { items := looseRows, accessors := [("byName", byName)] }

theorem sort_looseRows : StableSort.sort keyOrder (looseRows.zip looseNames) = none := by
  rw [StableSort.sort_of_lt_length _ (by decide), StableSort.sort_of_length_le _ (by decide),
    StableSort.sort_of_length_le _ (by decide)]
  decide +kernel

/-- **A sort that gives up loses the items.** All rows have keys, but the
outcome is no list of rows, and the session is left without any. -/
theorem looseRows_lost :
    (∀ row ∈ looseSession.items, ∃ key, byName.key row = .ok key) ∧
      (¬ ∃ sorted, byName.sortBy looseSession.items = .ok sorted ∧
        sorted.Perm looseSession.items) ∧
      looseSession.run (.sort "byName") = ({ looseSession with items := [] }, .gaveUp) := by
  have hkeyed : byName.keyed looseSession.items = .ok (looseRows.zip looseNames) := rfl
  have hsort : byName.sortBy looseSession.items = .error .gaveUp := by
    rw [sortBy_of_keyed hkeyed, sort_looseRows]
  refine ⟨fun row hrow => ?_, ?_, ?_⟩
  · obtain ⟨name, -, rfl⟩ := List.mem_map.1 hrow
    exact ⟨name, rfl⟩
  · rintro ⟨sorted, hsorted, -⟩
    rw [hsort] at hsorted
    cases hsorted
  · have hname : looseSession.accessor? "byName" = some byName := rfl
    simp only [Session.run, Session.withAccessor, hname, hsort, Session.withSorted]

end Accessor

end PathAccess
