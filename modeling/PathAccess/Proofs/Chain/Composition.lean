import PathAccess.Chain.Building
import PathAccess.Proofs.Plan.Composition
/-!
# Paths in two parts

Only the shape that has been reached passes from one element of a path
to the next. So a path may be cut anywhere: the links of its second part
are built behind the final shape of the first, with the errors and the
events that the whole path has, and the plan of the whole is the plan of
the second part behind that of the first.
-/

namespace PathAccess

namespace Chain

variable {policy : UnsupportedPolicy} {current root : Shape} {xs ys : List Element}

/-- A chain that goes on with the links of another one. -/
def append (c d : Chain) : Chain :=
  { c with links := c.links ++ d.links }

/-- **The links of a path in two parts are those of its parts**, the
second behind the shape that the first one reads, in outcome and events;
by induction on the first part. -/
theorem linksOf_append (xs ys : List Element) :
    linksOf policy current (xs ++ ys) =
      linksOf policy current xs >>= fun front =>
        linksOf policy (lastShape current front) ys >>= fun back => pure (front ++ back) := by
  induction xs generalizing current with
  | nil => simp [linksOf]
  | cons e xs ih =>
    simp only [List.cons_append, linksOf, ih, bind_assoc, pure_bind, lastShape_append,
      List.append_assoc]

/-- **So a path is built in two parts.** -/
theorem build_append (xs ys : List Element) :
    build policy root (xs ++ ys) =
      build policy root xs >>= fun c =>
        build policy c.finalShape ys >>= fun d => pure (c.append d) := by
  simp only [build, linksOf_append, bind_assoc, pure_bind, finalShape, append]

/-- The chain of a path in two parts is there when both chains are. -/
theorem outcome_build_append_eq_ok_iff {c : Chain} :
    (build policy root (xs ++ ys)).outcome = .ok c ↔
      ∃ c₁ c₂, (build policy root xs).outcome = .ok c₁ ∧
        (build policy c₁.finalShape ys).outcome = .ok c₂ ∧ c = c₁.append c₂ := by
  rw [build_append]
  constructor
  · intro h
    obtain ⟨c₁, h₁, h⟩ := Traced.exists_of_outcome_bind h
    obtain ⟨c₂, h₂, h⟩ := Traced.exists_of_outcome_bind h
    exact ⟨c₁, c₂, h₁, h₂, (Except.ok.inj h).symm⟩
  · rintro ⟨c₁, c₂, h₁, h₂, rfl⟩
    simp [h₁, h₂]

/-- And it fails as the first of them that does. -/
theorem outcome_build_append_eq_error_iff {e : CompileError} :
    (build policy root (xs ++ ys)).outcome = .error e ↔
      (build policy root xs).outcome = .error e ∨
        ∃ c₁, (build policy root xs).outcome = .ok c₁ ∧
          (build policy c₁.finalShape ys).outcome = .error e := by
  rw [build_append]
  cases h₁ : (build policy root xs).outcome with
  | error e₁ => simp [h₁]
  | ok c₁ => cases h₂ : (build policy c₁.finalShape ys).outcome <;> simp [h₁, h₂]

/-- The plan of the whole is that of the second part behind that of the
first. -/
theorem plan_append (c d : Chain) : (c.append d).plan = d.plan.behind c.plan := by
  simp [plan, append]

/-- **Building and evaluating are compositional.** A path in two parts
builds exactly when its first part does and its second part does behind
the final shape of the first; then its links are those of the two, and
else its error is that of the first part that fails. The plan of two
chains behind each other gives, on every root, what the second plan gives
on what the first one read: the same value, or an error of the same kind,
which names its read behind the first plan. -/
theorem build_and_value_append (policy : UnsupportedPolicy) (root : Shape)
    (xs ys : List Element) :
    (∀ c, (build policy root (xs ++ ys)).outcome = .ok c ↔
      ∃ c₁ c₂, (build policy root xs).outcome = .ok c₁ ∧
        (build policy c₁.finalShape ys).outcome = .ok c₂ ∧
        c = ⟨root, c₁.links ++ c₂.links⟩) ∧
    (∀ e, (build policy root (xs ++ ys)).outcome = .error e ↔
      (build policy root xs).outcome = .error e ∨
        ∃ c₁, (build policy root xs).outcome = .ok c₁ ∧
          (build policy c₁.finalShape ys).outcome = .error e) ∧
    ∀ (c₁ c₂ : Chain) (document : Json),
      let whole : Chain := ⟨root, c₁.links ++ c₂.links⟩
      (whole.plan.value document).mapError AccessError.kind =
        (c₁.plan.value document >>= c₂.plan.value).mapError AccessError.kind ∧
      whole.plan.value document =
        c₁.plan.value document >>= fun v =>
          (c₂.plan.value v).mapError (AccessError.behind c₁.plan) := by
  refine ⟨fun c => ?_, fun e => outcome_build_append_eq_error_iff, fun c₁ c₂ document => ?_⟩
  · rw [outcome_build_append_eq_ok_iff]
    refine exists₂_congr fun c₁ c₂ => and_congr_right fun h₁ => ?_
    obtain ⟨links, -, h⟩ := Traced.exists_of_outcome_bind h₁
    cases h
    rfl
  · have hplan : (⟨root, c₁.links ++ c₂.links⟩ : Chain).plan = c₂.plan.behind c₁.plan :=
      plan_append c₁ c₂
    simp only [hplan]
    exact ⟨Plan.mapError_kind_value_behind .., Plan.value_behind ..⟩

end Chain

end PathAccess
