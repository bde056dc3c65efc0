import PathAccess.Plan.Evaluation
/-!
# Evaluating reads behind each other

The laws of one access and of accesses in a row. A read goes on from
what its base gave, and an error of the base is the error of every read
behind it. A step is for values of one kind and fails on all others. Of
these, null is told apart from the rest: it fails on every step, and
nothing else fails with a null reference.
-/

namespace PathAccess

/-! ## What a step applies to -/

/-- How values of another kind are refused. -/
def Container.refusal : Container → StepError
  | object => .notAnObject
  | array => .notAnArray

theorem AccessError.ofStep_refusal (plan : Plan) (expected : Container) :
    ofStep plan expected.refusal = unexpectedValue expected plan := by
  cases expected <;> rfl

/-- Values of a kind. Null is of neither. -/
def Json.IsOf : Container → Json → Prop
  | .object, .object _ => True
  | .array, .array _ => True
  | _, _ => False

namespace Step

variable {step : Step} {v : Json}

/-- The kind of value that a step is for: a lookup is for objects, and a
search for arrays. -/
def container : Step → Container
  | lookup _ => .object
  | first _ _ => .array

/-- A step admits the values of its kind. -/
def Admits (step : Step) (v : Json) : Prop :=
  v.IsOf step.container

/-- **Null is the one value that admits no step.** -/
theorem apply_eq_null_iff : step.apply v = .error .null ↔ v = .null := by
  cases step <;> cases v <;> simp [Step.apply]

/-- From a value of its kind every step reads something. -/
theorem exists_apply_of_admits (h : step.Admits v) : ∃ r, step.apply v = .ok r := by
  cases step <;> cases v <;> first | exact ⟨_, rfl⟩ | exact h.elim

/-- A value that is neither of the kind of the step nor null is refused
for its kind. -/
theorem apply_of_not_admits (h : ¬ step.Admits v) (hne : v ≠ .null) :
    step.apply v = .error step.container.refusal := by
  cases step <;> cases v <;> first | rfl | exact absurd rfl hne | exact absurd trivial h

end Step

namespace Plan

variable {document : Json} {base plan : Plan} {step : Step} {r : Reading} {e : AccessError}

@[simp] theorem evaluate_root : root.evaluate document = .ok (.found document) := rfl

/-- The value of a plan is that of its reading. -/
theorem value_eq_ok_iff {v : Json} :
    plan.value document = .ok v ↔ ∃ r, plan.evaluate document = .ok r ∧ r.value = v := by
  have hvalue : plan.value document = (plan.evaluate document).map Reading.value := rfl
  rw [hvalue]
  cases plan.evaluate document with
  | error e => exact ⟨nofun, nofun⟩
  | ok r => simp [Except.map]

/-- The value of a plan fails as its reading does. -/
theorem value_eq_error_iff :
    plan.value document = .error e ↔ plan.evaluate document = .error e := by
  have hvalue : plan.value document = (plan.evaluate document).map Reading.value := rfl
  rw [hvalue]
  cases plan.evaluate document <;> simp [Except.map]

/-- A read goes on from what its base gave. -/
theorem evaluate_access_of_ok (h : base.evaluate document = .ok r) :
    (base.access step).evaluate document = applyStep (base.access step) step r := by
  simp only [evaluate, h]

/-- A read fails where its base does. -/
theorem evaluate_access_of_error (h : base.evaluate document = .error e) :
    (base.access step).evaluate document = .error e := by
  simp only [evaluate, h]

/-- **An error is that of every read behind it.** -/
theorem evaluate_accessAll_of_error {steps : List Step} (h : base.evaluate document = .error e) :
    (base.accessAll steps).evaluate document = .error e := by
  induction steps generalizing base with
  | nil => exact h
  | cons s steps ih => exact ih (evaluate_access_of_error h)

/-! ## Null and the other failures -/

/-- Every step fails on null. -/
theorem applyStep_of_null (h : r.value = .null) :
    applyStep plan step r = .error (.nullReference plan) := by
  simp only [applyStep, Step.apply_eq_null_iff.2 h, AccessError.ofStep]

/-- So every read behind null fails, and the first of them is named. -/
theorem evaluate_accessAll_of_null {steps : List Step} (h : base.evaluate document = .ok r)
    (hnull : r.value = .null) :
    (base.accessAll (step :: steps)).evaluate document =
      .error (.nullReference (base.access step)) := by
  rw [accessAll_cons]
  apply evaluate_accessAll_of_error
  rw [evaluate_access_of_ok h, applyStep_of_null hnull]

/-- A step reads something from a value of its kind. -/
theorem exists_applyStep_of_admits (h : step.Admits r.value) :
    ∃ r', applyStep plan step r = .ok r' := by
  obtain ⟨r', hr'⟩ := Step.exists_apply_of_admits h
  exact ⟨r'.outOf r.origin, by simp only [applyStep, hr']⟩

/-- On any other value but null it asks for its kind. -/
theorem applyStep_of_not_admits (h : ¬ step.Admits r.value) (hne : r.value ≠ .null) :
    applyStep plan step r = .error (.unexpectedValue step.container plan) := by
  simp only [applyStep, Step.apply_of_not_admits h hne, AccessError.ofStep_refusal]

/-- **Only null fails with a null reference.** A step fails on any other
value because it is of the wrong kind. -/
theorem unexpectedValue_of_applyStep (hne : r.value ≠ .null)
    (h : applyStep plan step r = .error e) :
    ∃ expected, e = .unexpectedValue expected plan := by
  by_cases hadmits : step.Admits r.value
  · obtain ⟨r', hr'⟩ : ∃ r', applyStep plan step r = .ok r' := exists_applyStep_of_admits hadmits
    rw [hr'] at h
    cases h
  · rw [applyStep_of_not_admits hadmits hne] at h
    exact ⟨step.container, (Except.error.inj h).symm⟩

/-- **A null reference is a step on null.** -/
theorem applyStep_eq_nullReference_iff {p : Plan} :
    applyStep plan step r = .error (.nullReference p) ↔ r.value = .null ∧ p = plan := by
  by_cases hr : r.value = .null
  · simp [applyStep_of_null hr, hr, eq_comm]
  · refine ⟨fun h => ?_, fun h => absurd h.1 hr⟩
    obtain ⟨expected, he⟩ := unexpectedValue_of_applyStep hr h
    cases he

end Plan

end PathAccess
