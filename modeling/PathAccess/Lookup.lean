import PathAccess.Json.Printer
import PathAccess.Shape.Fallback
/-!
# Lookups

A name is looked up by the shape it stands behind: as a key of a map, where an absent key yields
the zero of the values, or as a member of a record, which must have it. Behind `any` every name is
a member of shape `any`. Optional layers do not matter.
-/

namespace PathAccess

/-- How a name is read from an object. -/
inductive Lookup where
  | member (name : String)
  /-- A key of a map, and what an absent key yields. -/
  | mapKey (key : String) (miss : Json)

namespace Lookup

/-- The key that is read. -/
def key : Lookup → String
  | member name => name
  | mapKey key _ => key

/-- What is read where the object has no such key. -/
def miss : Lookup → Json
  | member _ => .null
  | mapKey _ miss => miss

/-- The lookup as a part of a plan. -/
def display : Lookup → String
  | member name => "." ++ name
  | mapKey key _ => "[" ++ String.ofList (Json.writtenString key) ++ "]"

/-- The lookup of a name behind a shape, and the shape that it reads. -/
def resolve (current : Shape) (name : String) : Except CompileError (Lookup × Shape) :=
  match current.nonNull with
  | .map value => .ok (mapKey name value.zero, value)
  | .record r => match r.member? name with
    | some shape => .ok (member name, shape)
    | none => .error (.unknownMember r.name name)
  | .any => .ok (member name, .any)
  | other => .error (.notNavigable other name)

/-- The lookups of names that stand behind each other, and the shape that the last one reads. -/
def resolveAll : Shape → List String → Except CompileError (List Lookup × Shape)
  | current, [] => .ok ([], current)
  | current, name :: names =>
    match resolve current name with
    | .error e => .error e
    | .ok (lookup, shape) =>
      match resolveAll shape names with
      | .error e => .error e
      | .ok (lookups, last) => .ok (lookup :: lookups, last)

/-- Resolving a name gives a lookup of that name. -/
theorem key_of_resolve {current : Shape} {name : String} {l : Lookup} {s : Shape}
    (h : resolve current name = .ok (l, s)) : l.key = name := by
  simp only [resolve] at h
  split at h
  · cases h; rfl
  · split at h <;> cases h
    rfl
  · cases h; rfl
  · cases h

end Lookup

end PathAccess
