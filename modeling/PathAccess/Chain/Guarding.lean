import PathAccess.Chain.Basic
import PathAccess.Trace
/-!
# Guarding chains

A guarded chain checks each of its reads that may be null before it goes on, from the root to the
leaf, and yields the fallback of its final shape at the first that is. Reads of the shapes that
are never null are not checked, and a chain of at most one link is left as it is.
-/

namespace PathAccess.Chain

/-- The reads of links that may be null, behind a plan. -/
def nullableReads (base : Plan) : List Link → List Plan
  | [] => []
  | l :: links =>
    let read := base.access l.step
    if l.shape.isNullable then read :: nullableReads read links else nullableReads read links

/-- The guards of the given subjects around a plan, the first one outermost. -/
def guardAll (fallback : Json) (subjects : List Plan) (body : Plan) : Plan :=
  subjects.foldr (fun subject rest => .guarded subject fallback rest) body

/-- The chain with a guard for each read that may be null. Guards are put in from the leaf. -/
def guarded (c : Chain) : Traced Plan :=
  if c.links.length ≤ 1 then pure c.plan
  else do
    let fallback ← Traced.lift c.finalShape.fallback
    let subjects := nullableReads .root c.links
    Traced.tellAll (subjects.reverse.map fun subject => .guarded subject fallback)
    return guardAll fallback subjects c.plan

end PathAccess.Chain
