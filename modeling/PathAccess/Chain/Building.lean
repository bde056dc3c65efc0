import PathAccess.Chain.Basic
import PathAccess.Path.Escape
import PathAccess.Trace
/-!
# Chains of paths

The elements of a path are followed one by one from the shape of the root. A property becomes a
lookup and a filter a search, each against the shape that the links before it read; elements of
other kinds are refused or skipped, as the caller decides. Only that shape passes from one element
to the next, so the links of a path in two parts are those of its parts.
-/

namespace PathAccess

/-- What to do with an element that is not followed. -/
inductive UnsupportedPolicy where
  | reject
  /-- Go on as if the element were absent. -/
  | skip
deriving DecidableEq

namespace Chain

/-- The link of a property. -/
def propertyLink (current : Shape) (name : String) : Traced Link := do
  let name := Path.restore name
  let (lookup, shape) ← Traced.lift (Lookup.resolve current name)
  Traced.tell (.resolved name lookup shape)
  return ⟨.lookup lookup, shape⟩

/-- The link of a filter. -/
def filterLink (current : Shape) (text : String) : Traced Link :=
  match current.element? with
  | none => .fail (.notACollection current)
  | some element => do
    let predicate ← Traced.lift (Filter.Predicate.compile text element)
    Traced.tell (.filtered predicate element)
    return ⟨.first predicate element.zero, element⟩

/-- The link of an element, if it is of a kind that is followed. The root stands for no link. -/
def linkOf (policy : UnsupportedPolicy) (current : Shape) : Element → Traced (Option Link)
  | .root => pure none
  | .property name => do
    let link ← propertyLink current name
    return some link
  | .filter text => do
    let link ← filterLink current text
    return some link
  | e =>
    match policy with
    | .reject => .fail (.unsupportedElement e)
    | .skip => do
      Traced.tell (.skipped e)
      return none

/-- The links of elements behind a shape. An element without a link leaves the shape as it is. -/
def linksOf (policy : UnsupportedPolicy) : Shape → List Element → Traced (List Link)
  | _, [] => pure []
  | current, e :: es => do
    let link ← linkOf policy current e
    let links ← linksOf policy (lastShape current link.toList) es
    return link.toList ++ links

/-- The chain of elements behind a root. -/
def build (policy : UnsupportedPolicy) (root : Shape) (es : List Element) : Traced Chain := do
  let links ← linksOf policy root es
  return ⟨root, links⟩

end Chain

end PathAccess
