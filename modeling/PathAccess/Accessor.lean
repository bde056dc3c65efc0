import PathAccess.Chain.Building
import PathAccess.Chain.Guarding
import PathAccess.Plan.Evaluation
import PathAccess.Result.Type
/-!
# Accessors

An accessor is a compiled path. Compiling escapes dots, reads the path, follows its elements from
the shape of the root, and guards the chain if asked to. The shape of the result is known then, and
a result type that cannot be read from it is refused before any root is seen.
-/

namespace PathAccess

/-- How paths are compiled. -/
structure CompileOptions where
  /-- Yield the fallback of the result where something on the way is null. -/
  nullSafe : Bool := false
  unsupported : UnsupportedPolicy := .reject
deriving DecidableEq

/-- A compiled path. -/
structure Accessor where
  /-- The path as it was written. -/
  path : String
  plan : Plan
  /-- The shape that the plan reads. -/
  resultShape : Shape
  nullSafe : Bool

/-! ## Compiling -/

/-- The chain of a path behind a root. -/
def Chain.ofPath (policy : UnsupportedPolicy) (root : Shape) (path : String) : Traced Chain :=
  match Path.escape? path with
  | none => .fail (.reservedCharacter path)
  | some escaped =>
    match Path.read escaped with
    | .error e => .fail (.syntaxError e)
    | .ok es => Chain.build policy root es

/-- The plan of a chain under the given options. -/
def Chain.planWith (options : CompileOptions) (c : Chain) : Traced Plan :=
  if options.nullSafe then c.guarded else pure c.plan

/-- Whether a plan that reads one shape may serve as a reader of another. Null is left out of
account, and a result of shape `any` is only known when it is read. -/
def checkResult (produced requested : Shape) : Except CompileError Unit :=
  let found := produced.nonNull
  let fits := match found with
    | .any => true
    | found => found.convertsTo requested.nonNull
  if fits then .ok () else .error (.resultMismatch requested found)

namespace Accessor

/-- Compiles a path against the shape of its roots. -/
def compile (options : CompileOptions) (root : Shape) (path : String) : Traced Accessor := do
  let chain ← Chain.ofPath options.unsupported root path
  let plan ← chain.planWith options
  Traced.tell (.compiled path root plan)
  return ⟨path, plan, chain.finalShape, options.nullSafe⟩

/-- Compiles a path whose results are to be read as the requested shape. -/
def compileAs (options : CompileOptions) (requested root : Shape) (path : String) :
    Traced Accessor := do
  let accessor ← compile options root path
  Traced.lift (checkResult accessor.resultShape requested)
  return accessor

/-! ## Evaluating -/

/-- The value that an accessor reads from a root. -/
def value (a : Accessor) (document : Json) : Except AccessError Json :=
  a.plan.value document

/-- The value that an accessor reads from a root, as a value of a type. -/
def valueAs (a : Accessor) (t : ResultType) (document : Json) : Except AccessError t.Value :=
  match a.value document with
  | .error e => .error e
  | .ok j => match t.decode j with
    | .error e => .error (.notDecoded e)
    | .ok v => .ok v

/-! ## Displaying -/

/-- The accessor as a function. -/
def display (a : Accessor) : String :=
  "x => " ++ a.plan.display

/-- The accessor with all its fields. -/
def describe (a : Accessor) : String :=
  "Accessor \x7b path: " ++ Text.quoted a.path ++ ", plan: " ++ Text.quoted a.plan.display ++
    ", result_shape: " ++ Text.quoted a.resultShape.display ++ ", null_safe: " ++
    (if a.nullSafe then "true" else "false") ++ " \x7d"

end Accessor

end PathAccess
