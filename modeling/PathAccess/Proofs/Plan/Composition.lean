import PathAccess.Proofs.Plan.Evaluation
/-!
# Plans behind each other

A plan may be put behind another one: what the first reads is the root
of the second. Evaluating the two at once is evaluating the first, and
then the second on what it read, guards and all. A constant that the
first one yields stays a constant through the second, and an error of
the second names its read behind the first.
-/

namespace PathAccess

/-- A plan behind a base, which takes the place of its root. -/
def Plan.behind : (plan base : Plan) → Plan
  | root, base => base
  | access p step, base => (p.behind base).access step
  | guarded subject fallback body, base =>
    guarded (subject.behind base) fallback (body.behind base)

namespace AccessError

/-- An error behind a base: the read that it names is. -/
def behind (base : Plan) : AccessError → AccessError
  | nullReference p => nullReference (p.behind base)
  | unexpectedValue expected p => unexpectedValue expected (p.behind base)
  | e => e

/-- What went wrong, the place apart. -/
inductive Kind where
  | nullReference
  | unexpectedValue (expected : Container)
  | notProjected
  | notDecoded
deriving DecidableEq

/-- The kind of an error. -/
def kind : AccessError → Kind
  | nullReference _ => .nullReference
  | unexpectedValue expected _ => .unexpectedValue expected
  | notProjected _ => .notProjected
  | notDecoded _ => .notDecoded

/-- An error is of one kind behind every base. -/
@[simp] theorem kind_behind (base : Plan) (e : AccessError) : (e.behind base).kind = e.kind := by
  cases e <;> rfl

/-- The error of a step names its read behind the base. -/
@[simp] theorem behind_ofStep (base plan : Plan) (e : StepError) :
    (ofStep plan e).behind base = ofStep (plan.behind base) e := by
  cases e <;> rfl

end AccessError

namespace Plan

variable {document : Json} {base : Plan} {r : Reading} {e : AccessError}

@[simp] theorem behind_root (base : Plan) : root.behind base = base := rfl

@[simp] theorem behind_access (p base : Plan) (step : Step) :
    (p.access step).behind base = (p.behind base).access step := rfl

/-- Steps in a row are taken behind a base one by one. -/
@[simp] theorem behind_accessAll (p base : Plan) (steps : List Step) :
    (p.accessAll steps).behind base = (p.behind base).accessAll steps := by
  induction steps generalizing p with
  | nil => rfl
  | cons s steps ih => exact ih (p.access s)

/-- What a plan gives behind a base that read a value, from what it gives
on that value. -/
def outcomeBehind (base : Plan) (r : Reading) (o : Except AccessError Reading) :
    Except AccessError Reading :=
  (o.map (Reading.outOf r.origin)).mapError (AccessError.behind base)

@[simp] theorem outcomeBehind_ok (base : Plan) (r inner : Reading) :
    outcomeBehind base r (.ok inner) = .ok (inner.outOf r.origin) := rfl

@[simp] theorem outcomeBehind_error (base : Plan) (r : Reading) (e : AccessError) :
    outcomeBehind base r (.error e) = .error (e.behind base) := rfl

/-- A step behind a base reads what it reads on the value of the base. -/
theorem applyStep_behind (base plan : Plan) (step : Step) (r inner : Reading) :
    applyStep (plan.behind base) step (inner.outOf r.origin) =
      outcomeBehind base r (applyStep plan step inner) := by
  simp only [applyStep, Reading.value_outOf]
  cases step.apply inner.value with
  | error e => rw [outcomeBehind_error, AccessError.behind_ofStep]
  | ok r' => rw [outcomeBehind_ok, Reading.outOf_outOf]

/-- A plan fails where its base does. -/
theorem evaluate_behind_of_error (h : base.evaluate document = .error e) (p : Plan) :
    (p.behind base).evaluate document = .error e := by
  induction p with
  | root => exact h
  | access p step ih => exact evaluate_access_of_error ih
  | guarded subject fallback body ih => simp only [behind, evaluate, ih]

/-- **A plan behind a base is evaluated on what the base read**, by
induction on the plan. -/
theorem evaluate_behind_of_ok (h : base.evaluate document = .ok r) (p : Plan) :
    (p.behind base).evaluate document = outcomeBehind base r (p.evaluate r.value) := by
  induction p with
  | root =>
    obtain ⟨value, origin⟩ := r
    cases origin <;> exact h
  | access p step ih =>
    cases hp : p.evaluate r.value with
    | error e =>
      rw [hp] at ih
      rw [evaluate_access_of_error hp]
      exact evaluate_access_of_error ih
    | ok inner =>
      rw [hp] at ih
      rw [evaluate_access_of_ok hp, ← applyStep_behind]
      exact evaluate_access_of_ok ih
  | guarded subject fallback body ihSubject ihBody =>
    simp only [behind, evaluate, ihSubject, ihBody]
    cases subject.evaluate r.value with
    | error e => rfl
    | ok s =>
      simp only [outcomeBehind_ok, Reading.value_outOf]
      -- the fallback is a constant behind every base
      cases s.value.isNull with
      | true => exact congrArg Except.ok (Reading.outOf_constant r.origin fallback).symm
      | false => rfl

/-- **Two plans behind each other are evaluated in two stages**, up to
the reads that errors name. -/
theorem value_behind (p base : Plan) (document : Json) :
    (p.behind base).value document =
      base.value document >>= fun v => (p.value v).mapError (AccessError.behind base) := by
  simp only [value]
  cases h : base.evaluate document with
  | error e => rw [evaluate_behind_of_error h]; rfl
  | ok r =>
    rw [evaluate_behind_of_ok h]
    show (outcomeBehind base r (p.evaluate r.value)).map Reading.value =
      ((p.evaluate r.value).map Reading.value).mapError (AccessError.behind base)
    cases p.evaluate r.value with
    | error e => rfl
    | ok r' => exact congrArg Except.ok (Reading.value_outOf r.origin r')

/-- So the values agree, and so do the kinds of the errors. -/
theorem mapError_kind_value_behind (p base : Plan) (document : Json) :
    ((p.behind base).value document).mapError AccessError.kind =
      (base.value document >>= p.value).mapError AccessError.kind := by
  rw [value_behind]
  cases base.value document with
  | error e => rfl
  | ok v =>
    show ((p.value v).mapError (AccessError.behind base)).mapError AccessError.kind =
      (p.value v).mapError AccessError.kind
    cases p.value v with
    | error e => exact congrArg Except.error (AccessError.kind_behind base e)
    | ok w => rfl

/-! ## What a plan gives, the places of errors apart -/

/-- The value that a plan reads, or the kind of its error. -/
def result (p : Plan) (document : Json) : Except AccessError.Kind Json :=
  (p.value document).mapError AccessError.kind

theorem result_eq_ok_iff {p : Plan} {v : Json} :
    p.result document = .ok v ↔ p.value document = .ok v := by
  rw [result]
  constructor <;> intro h
  · cases hvalue : p.value document with
    | error e =>
      rw [hvalue] at h
      cases h
    | ok w =>
      rw [hvalue] at h
      cases h
      rfl
  · rw [h]
    rfl

/-- **Steps in a row give what the second part of them gives on what the
first part reads.** -/
theorem result_accessAll_append (xs ys : List Step) (document : Json) :
    (root.accessAll (xs ++ ys)).result document =
      (root.accessAll xs).result document >>= (root.accessAll ys).result := by
  have hbehind : root.accessAll (xs ++ ys) = (root.accessAll ys).behind (root.accessAll xs) := by
    simp
  rw [result, hbehind, mapError_kind_value_behind, result]
  cases (root.accessAll xs).value document <;> rfl

theorem result_accessAll_cons (step : Step) (steps : List Step) (document : Json) :
    (root.accessAll (step :: steps)).result document =
      (root.access step).result document >>= (root.accessAll steps).result :=
  result_accessAll_append [step] steps document

end Plan

end PathAccess
