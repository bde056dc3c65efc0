import PathAccess.Collection
/-!
# Sessions

A session keeps what is needed to work on one list of items: the options and the root shape that
paths are compiled with, the items, and compiled accessors under names of the user's choice. Each
command changes at most one of them, and a command that fails changes none, but for a sort that
gives up: it has taken the items.
-/

namespace PathAccess

/-- An item of a session. -/
inductive Item where
  | data (value : Json)
  /-- An item without a JSON form. -/
  | unprojected (reason : String)

instance : Projected Item where
  project
    | .data value => .ok value
    | .unprojected reason => .error reason

/-- A list of items, and what it takes to work on it. -/
structure Session where
  options : CompileOptions := {}
  root : Shape := .any
  items : List Item := []
  accessors : List (String × Accessor) := []

/-- What a session can be told to do. Accessors are named. -/
inductive Command where
  | setOptions (options : CompileOptions)
  | setRoot (root : Shape)
  | setItems (items : List Item)
  | addItem (item : Item)
  | compile (path name : String)
  | copy (source name : String)
  | keys (accessor : String)
  | sort (accessor : String)
  | filter (accessor : String) (op : Comparison) (operand : Json)

/-- What a session answers. -/
inductive Response where
  | options (options : CompileOptions)
  | root (root : Shape)
  | count (n : Nat)
  | accessor (a : Accessor)
  | keys (keys : List (Except AccessError Json))
  | sorted
  | notCompiled (e : CompileError)
  | notEvaluated (e : AccessError)
  | gaveUp
  | noAccessor (name : String)

namespace Session

/-- The accessor of a name. -/
def accessor? (s : Session) (name : String) : Option Accessor :=
  (s.accessors.find? fun entry => entry.1 == name).map (·.2)

/-- Names an accessor, in place of one that had the name. -/
def setAccessor (s : Session) (name : String) (a : Accessor) : Session :=
  { s with accessors := (name, a) :: s.accessors.filter fun entry => entry.1 != name }

/-- Runs what needs an accessor. -/
def withAccessor (s : Session) (name : String) (f : Accessor → Session × Response) :
    Session × Response :=
  match s.accessor? name with
  | some a => f a
  | none => (s, .noAccessor name)

/-- Replaces the items by the sorted ones. -/
def withSorted (s : Session) : Except SortFailure (List Item) → Session × Response
  | .ok items => ({ s with items }, .sorted)
  | .error (.noKey e) => (s, .notEvaluated e)
  | .error .gaveUp => ({ s with items := [] }, .gaveUp)

/-- Replaces the items by those that are kept. -/
def withKept (s : Session) : Except AccessError (List Item) → Session × Response
  | .ok items => ({ s with items }, .count items.length)
  | .error e => (s, .notEvaluated e)

/-- Carries out a command. -/
def run (s : Session) : Command → Session × Response
  | .setOptions options => ({ s with options }, .options options)
  | .setRoot root => ({ s with root }, .root root)
  | .setItems items => ({ s with items }, .count items.length)
  | .addItem item => ({ s with items := s.items ++ [item] }, .count (s.items.length + 1))
  | .compile path name =>
    match (Accessor.compile s.options s.root path).outcome with
    | .ok a => (s.setAccessor name a, .accessor a)
    | .error e => (s, .notCompiled e)
  | .copy source name =>
    s.withAccessor source fun a => (s.setAccessor name a, .accessor a)
  | .keys name =>
    s.withAccessor name fun a => (s, .keys (s.items.map a.key))
  | .sort name =>
    s.withAccessor name fun a => s.withSorted (a.sortBy s.items)
  | .filter name op operand =>
    s.withAccessor name fun a =>
      s.withKept (a.filterBy (fun key => op.test key operand) s.items)

end Session

end PathAccess
