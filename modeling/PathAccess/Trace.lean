import PathAccess.CompileError
import PathAccess.Plan.Basic
/-!
# Traced compilation

Compiling a path tells what it does as it goes on. `Traced` is an outcome with the events before
it: the events of a step that fails are kept, and nothing is told after it.
-/

namespace PathAccess

/-- Something that happened while a path was compiled. -/
inductive Event where
  /-- A name was resolved to a lookup that reads a shape. -/
  | resolved (name : String) (lookup : Lookup) (shape : Shape)
  /-- A filter was compiled against the shape of the elements. -/
  | filtered (predicate : Filter.Predicate) (element : Shape)
  /-- An element was skipped. -/
  | skipped (e : Element)
  /-- A read was guarded by a fallback. -/
  | guarded (subject : Plan) (fallback : Json)
  /-- A path was compiled against a root. -/
  | compiled (path : String) (root : Shape) (plan : Plan)

namespace Event

/-- How important an event is. -/
def level : Event → String
  | resolved .. | filtered .. | guarded .. => "TRACE"
  | skipped .. => "WARN"
  | compiled .. => "DEBUG"

/-- The text of an event. -/
def message : Event → String
  | resolved name lookup shape =>
    "Resolved '" ++ name ++ "' as `" ++ lookup.display ++ "` -> " ++ shape.display
  | filtered predicate element =>
    "Filter `" ++ predicate.display ++ "` -> " ++ element.display
  | skipped e => "Ignoring unsupported " ++ e.kind ++ " element '" ++ e.render ++ "'"
  | guarded subject fallback =>
    "Guarding `" ++ subject.display ++ "` with " ++ fallback.render
  | compiled path root plan =>
    "Compiled '" ++ path ++ "' against " ++ root.display ++ " as `" ++ plan.display ++ "`"

/-- An event as a line of a log. -/
def line (e : Event) : String :=
  e.level ++ " " ++ e.message

end Event

/-- An outcome, and the events that led to it. -/
@[ext] structure Traced (α : Type) where
  events : List Event
  outcome : Except CompileError α

namespace Traced

variable {α β : Type}

/-- An outcome without events. -/
def lift (outcome : Except CompileError α) : Traced α := ⟨[], outcome⟩

/-- An event. -/
def tell (e : Event) : Traced Unit := ⟨[e], .ok ()⟩

/-- Events, in order. -/
def tellAll (es : List Event) : Traced Unit := ⟨es, .ok ()⟩

/-- One computation after another, which is left out if the first fails. -/
protected def bind (x : Traced α) (f : α → Traced β) : Traced β :=
  match x.outcome with
  | .ok a => ⟨x.events ++ (f a).events, (f a).outcome⟩
  | .error e => ⟨x.events, .error e⟩

instance : Monad Traced where
  pure a := ⟨[], .ok a⟩
  bind := Traced.bind

/-- A failure. -/
def fail (e : CompileError) : Traced α := ⟨[], .error e⟩

@[simp] theorem events_pure (a : α) : (pure a : Traced α).events = [] := rfl

@[simp] theorem outcome_pure (a : α) : (pure a : Traced α).outcome = .ok a := rfl

@[simp] theorem outcome_lift (r : Except CompileError α) : (lift r).outcome = r := rfl

@[simp] theorem events_lift (r : Except CompileError α) : (lift r).events = [] := rfl

@[simp] theorem outcome_fail (e : CompileError) : (fail e : Traced α).outcome = .error e := rfl

@[simp] theorem events_fail (e : CompileError) : (fail e : Traced α).events = [] := rfl

@[simp] theorem outcome_tell (e : Event) : (tell e).outcome = .ok () := rfl

@[simp] theorem events_tell (e : Event) : (tell e).events = [e] := rfl

@[simp] theorem outcome_tellAll (es : List Event) : (tellAll es).outcome = .ok () := rfl

@[simp] theorem events_tellAll (es : List Event) : (tellAll es).events = es := rfl

/-- The outcome of a sequence depends on no event. -/
@[simp] theorem outcome_bind (x : Traced α) (f : α → Traced β) :
    (x >>= f).outcome = match x.outcome with
      | .ok a => (f a).outcome
      | .error e => .error e := by
  show (Traced.bind x f).outcome = _
  rw [Traced.bind]
  cases x.outcome <;> rfl

/-- A sequence succeeds when both parts do. -/
theorem exists_of_outcome_bind {x : Traced α} {f : α → Traced β} {b : β}
    (h : (x >>= f).outcome = .ok b) : ∃ a, x.outcome = .ok a ∧ (f a).outcome = .ok b := by
  rw [outcome_bind] at h
  cases hx : x.outcome with
  | error e => rw [hx] at h; cases h
  | ok a => rw [hx] at h; exact ⟨a, rfl, h⟩

/-- The events of a sequence are those of its parts, up to the first failure. -/
@[simp] theorem events_bind (x : Traced α) (f : α → Traced β) :
    (x >>= f).events = x.events ++ match x.outcome with
      | .ok a => (f a).events
      | .error _ => [] := by
  show (Traced.bind x f).events = _
  rw [Traced.bind]
  cases x.outcome <;> simp

/-- Sequences may be put together in any order. -/
instance : LawfulMonad Traced := by
  refine LawfulMonad.mk' Traced (fun x => ?_) (fun a f => ?_) (fun x f g => ?_)
  · show x >>= pure = x
    ext1
    · cases h : x.outcome <;> simp [h]
    · cases h : x.outcome <;> simp [h]
  · ext1 <;> simp
  · ext1
    · cases h : x.outcome <;> simp [h]
    · cases h : x.outcome with
      | error e => simp [h]
      | ok a => cases hf : (f a).outcome <;> simp [h, hf]

@[simp] theorem outcome_map (f : α → β) (x : Traced α) :
    (f <$> x).outcome = match x.outcome with
      | .ok a => .ok (f a)
      | .error e => .error e := by
  rw [← bind_pure_comp, outcome_bind]
  rfl

@[simp] theorem events_map (f : α → β) (x : Traced α) : (f <$> x).events = x.events := by
  rw [← bind_pure_comp, events_bind]
  cases x.outcome <;> simp

end Traced

end PathAccess
