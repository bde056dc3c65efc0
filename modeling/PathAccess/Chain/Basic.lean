import PathAccess.Plan.Basic
/-!
# Chains

A chain is the linear form of a path: the shape of its root, and a list of links, each of which is
a step and the shape that the step reads. Every prefix of a chain is a plan, and so is the whole.
-/

namespace PathAccess

/-- A step, and the shape that it reads. -/
structure Link where
  step : Step
  shape : Shape

/-- A root and the links behind it. -/
structure Chain where
  root : Shape
  links : List Link := []

/-- The shape at the end of links, which is that of the root where there are none. -/
def lastShape (root : Shape) (links : List Link) : Shape :=
  links.foldl (fun _ l => l.shape) root

namespace Chain

/-- Adds a link at the end. -/
def push (c : Chain) (step : Step) (shape : Shape) : Chain :=
  { c with links := c.links ++ [⟨step, shape⟩] }

/-- The shape that the chain reads. -/
def finalShape (c : Chain) : Shape :=
  lastShape c.root c.links

/-- The plan that reads the first links, as many as asked for. -/
def upTo (c : Chain) (count : Nat) : Plan :=
  Plan.root.accessAll ((c.links.take count).map Link.step)

/-- The plan that reads all links. -/
def plan (c : Chain) : Plan :=
  Plan.root.accessAll (c.links.map Link.step)

end Chain

@[simp] theorem lastShape_nil (root : Shape) : lastShape root [] = root := rfl

@[simp] theorem lastShape_cons (root : Shape) (l : Link) (links : List Link) :
    lastShape root (l :: links) = lastShape l.shape links := rfl

@[simp] theorem lastShape_append (root : Shape) (xs ys : List Link) :
    lastShape root (xs ++ ys) = lastShape (lastShape root xs) ys := by
  simp [lastShape]

namespace Chain

@[simp] theorem finalShape_push (c : Chain) (step : Step) (shape : Shape) :
    (c.push step shape).finalShape = shape := by
  simp [finalShape, push]

@[simp] theorem plan_push (c : Chain) (step : Step) (shape : Shape) :
    (c.push step shape).plan = c.plan.access step := by
  simp [plan, push]

/-- The whole chain is its prefix of full length. -/
@[simp] theorem upTo_length (c : Chain) : c.upTo c.links.length = c.plan := by
  simp [upTo, plan]

end Chain

end PathAccess
