import PathAccess.Step
/-!
# Plans

A plan is a tree of reads below the root: steps behind each other, and guards that yield a
fallback where what they look at is null. It is displayed as a function body over `x`.
-/

namespace PathAccess

/-- How a value is read from a root. -/
inductive Plan where
  | root
  | access (base : Plan) (step : Step)
  /-- The fallback if the subject is null, and the body otherwise. -/
  | guarded (subject : Plan) (fallback : Json) (body : Plan)
deriving Inhabited

namespace Plan

/-- The plan in lambda notation, with `x` for the root. -/
def display : Plan → String
  | root => "x"
  | access base step => base.display ++ step.display
  | guarded subject fallback body =>
    subject.display ++ " == null ? " ++ fallback.render ++ " : " ++ body.display

/-- Whether the outermost node is a guard. -/
def isGuarded : Plan → Bool
  | guarded .. => true
  | _ => false

/-- The plan that takes steps behind each other, starting from a plan. -/
def accessAll (base : Plan) (steps : List Step) : Plan :=
  steps.foldl access base

@[simp] theorem accessAll_nil (base : Plan) : base.accessAll [] = base := rfl

@[simp] theorem accessAll_cons (base : Plan) (s : Step) (steps : List Step) :
    base.accessAll (s :: steps) = (base.access s).accessAll steps := rfl

@[simp] theorem accessAll_append (base : Plan) (xs ys : List Step) :
    base.accessAll (xs ++ ys) = (base.accessAll xs).accessAll ys := by
  simp [accessAll]

end Plan

end PathAccess
