import PathAccess.Filter.Literal
import PathAccess.Lookup
/-!
# Predicates

A predicate is a filter whose names are resolved against the shape of the elements and whose
literal is read for the shape of the field. An element matches when the operator holds between its
field and the operand. The field is null where an entry is missing or its holder is no object.
-/

namespace PathAccess.Filter

/-- A filter, ready to test elements. -/
structure Predicate where
  lookups : List Lookup
  op : Comparison
  operand : Json

namespace Predicate

/-- The predicate that a clause stands for, over elements of a shape. The filter's text is kept
for the errors. -/
def ofClause (text : String) (clause : Clause) (element : Shape) :
    Except CompileError Predicate := do
  let (lookups, field) ← Lookup.resolveAll element clause.names
  if clause.op.isRelational && !field.isOrderable then
    throw (.unorderedField text clause.op field)
  let value ← Filter.operand clause field
  return ⟨lookups, clause.op, value⟩

/-- The predicate that a filter's text stands for, over elements of a shape. -/
def compile (text : String) (element : Shape) : Except CompileError Predicate := do
  let clause ← Clause.parse text
  ofClause text clause element

/-- The compared field of an element. -/
def field (p : Predicate) (element : Json) : Json :=
  p.lookups.foldl (fun value l => (value.get? l.key).getD .null) element

/-- Whether an element satisfies the filter. -/
def holds (p : Predicate) (element : Json) : Bool :=
  p.op.test (p.field element) p.operand

/-- The predicate as a function of `y`. -/
def display (p : Predicate) : String :=
  "y => y" ++ String.join (p.lookups.map Lookup.display) ++ " " ++ p.op.token ++ " " ++
    p.operand.render

end Predicate

end PathAccess.Filter
