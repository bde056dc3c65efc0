import PathAccess.Accessor
import PathAccess.StableSort
/-!
# Sorting and filtering by accessors

A list of items is sorted or filtered by the value that an accessor reads from each. All keys are
read first, so that one failure leaves the list alone; it is the failure of the first item that has
one. Items need not be JSON values: each type of item says how an item is projected, which may fail.

To be sorted the items are taken out of their list. They do not return to it if the sort gives up,
which it may where the total order is not transitive on the keys.
-/

namespace PathAccess

/-- Items that have a JSON form, or a reason why they have none. -/
class Projected (α : Type) where
  project : α → Except String Json

instance : Projected Json where
  project := .ok

/-- Why a list of items is not sorted. -/
inductive SortFailure where
  /-- An item has no key, and none has been moved. -/
  | noKey (e : AccessError)
  /-- The sort gave up, with the items taken out of their list. -/
  | gaveUp

namespace Accessor

variable {α : Type} [Projected α]

/-- The key of an item: the value that the accessor reads from its JSON form. -/
def key (a : Accessor) (item : α) : Except AccessError Json :=
  match Projected.project item with
  | .error reason => .error (.notProjected reason)
  | .ok document => a.value document

/-- The key of an item, as a value of a type. -/
def keyAs (a : Accessor) (t : ResultType) (item : α) : Except AccessError t.Value :=
  match Projected.project item with
  | .error reason => .error (.notProjected reason)
  | .ok document => a.valueAs t document

/-- The items with their keys, or the error of the first item that has none. -/
def keyed (a : Accessor) : List α → Except AccessError (List (α × Json))
  | [] => .ok []
  | item :: items =>
    match a.key item with
    | .error e => .error e
    | .ok key => (keyed a items).map ((item, key) :: ·)

/-- The items in the order of their keys, where items of equal keys stay as they were. -/
def sortBy (a : Accessor) (items : List α) : Except SortFailure (List α) :=
  match a.keyed items with
  | .error e => .error (.noKey e)
  | .ok pairs =>
    match StableSort.sort (fun x y => x.2.totalOrder y.2) pairs with
    | some sorted => .ok (sorted.map Prod.fst)
    | none => .error .gaveUp

/-- The items whose keys satisfy a condition. -/
def filterBy (a : Accessor) (condition : Json → Bool) (items : List α) :
    Except AccessError (List α) :=
  (a.keyed items).map fun pairs => (pairs.filter fun pair => condition pair.2).map Prod.fst

end Accessor

end PathAccess
