import PathAccess.Chain.Guarding
import PathAccess.Proofs.Chain.Linked
import PathAccess.Proofs.Plan.Evaluation
/-!
# Null safety — a guarded chain refines the plain one

On any root but null, a guarded chain reads what the plain chain reads,
puts the fallback where the plain chain dereferences null, and fails
with the plain chain's own error where a value is of the wrong kind. The
root need not fit its shape.

The guards stand around the whole plan, and each of them reads its
prefix of the chain anew. The induction is on the links with the prefix
behind them as the base, under the invariant that the base reads a value
other than null. What makes it go through is `Linked`: a link without a
guard is of a kind that nothing stands behind, so it is the leaf.
-/

namespace PathAccess

/-! ## What guards make of an outcome -/

/-- The outcome of a chain under guards, from its outcome without them:
a null reference becomes the fallback, and so does null itself where the
leaf is guarded. -/
def underGuards (fallback : Json) (leafGuarded : Bool) :
    Except AccessError Reading → Except AccessError Reading
  | .ok r => if r.value.isNull && leafGuarded then .ok (.constant fallback) else .ok r
  | .error (.nullReference _) => .ok (.constant fallback)
  | .error e => .error e

section

variable {d : Json} {leafGuarded : Bool} {r : Reading}

theorem underGuards_of_ne_null (h : r.value ≠ .null) : underGuards d leafGuarded (.ok r) = .ok r := by
  simp [underGuards, Json.isNull_eq_false_iff.2 h]

theorem underGuards_of_null (h : r.value = .null) :
    underGuards d leafGuarded (.ok r) = if leafGuarded then .ok (.constant d) else .ok r := by
  simp [underGuards, h, Json.isNull]

/-- No null reference is left. -/
theorem underGuards_ne_nullReference (o : Except AccessError Reading) (p : Plan) :
    underGuards d leafGuarded o ≠ .error (.nullReference p) := by
  intro h
  rcases o with e | r
  · cases e <;> cases h
  · simp only [underGuards] at h
    split at h <;> cases h

end

/-! ## One guard -/

namespace Plan

variable {document d : Json} {subject body : Plan} {r : Reading} {e : AccessError}

theorem evaluate_guarded_of_error (h : subject.evaluate document = .error e) :
    (guarded subject d body).evaluate document = .error e := by
  simp only [evaluate, h]

theorem evaluate_guarded_of_null (h : subject.evaluate document = .ok r) (hnull : r.value = .null) :
    (guarded subject d body).evaluate document = .ok (.constant d) := by
  simp [evaluate, h, hnull, Json.isNull]

theorem evaluate_guarded_of_ne_null (h : subject.evaluate document = .ok r)
    (hne : r.value ≠ .null) :
    (guarded subject d body).evaluate document = body.evaluate document := by
  simp [evaluate, h, Json.isNull_eq_false_iff.2 hne]

end Plan

/-! ## A chain of guards -/

namespace Chain

variable {document d : Json} {base : Plan} {r : Reading}

/-- The guards of a link and of the links behind it. -/
theorem guardAll_nullableReads_cons (l : Link) (links : List Link) (body : Plan) :
    guardAll d (nullableReads base (l :: links)) body =
      if l.shape.isNullable then
        .guarded (base.access l.step) d (guardAll d (nullableReads (base.access l.step) links) body)
      else guardAll d (nullableReads (base.access l.step) links) body := by
  simp only [nullableReads]
  split <;> rfl

/-- **What guards make of a chain**, behind a base that reads a value
other than null. -/
theorem evaluate_guardAll {links : List Link} {current : Shape}
    (hbase : base.evaluate document = .ok r) (hne : r.value ≠ .null)
    (hlinks : Linked current links) :
    (guardAll d (nullableReads base links) (base.accessAll (links.map Link.step))).evaluate
        document =
      underGuards d (lastShape current links).isNullable
        ((base.accessAll (links.map Link.step)).evaluate document) := by
  induction links generalizing base r current with
  | nil => simpa [nullableReads, guardAll, hbase] using (underGuards_of_ne_null hne).symm
  | cons l links ih =>
    obtain ⟨-, hlinks⟩ := Linked.cons_iff.1 hlinks
    rw [guardAll_nullableReads_cons]
    simp only [List.map_cons, Plan.accessAll_cons, lastShape_cons]
    have hread : (base.access l.step).evaluate document = _ := Plan.evaluate_access_of_ok hbase
    cases happly : Plan.applyStep (base.access l.step) l.step r with
    | error e =>
      -- the read fails for its kind, and with it everything behind it
      rw [happly] at hread
      obtain ⟨expected, rfl⟩ := Plan.unexpectedValue_of_applyStep hne happly
      rw [Plan.evaluate_accessAll_of_error hread]
      cases hnull : l.shape.isNullable with
      | true => exact Plan.evaluate_guarded_of_error hread
      | false =>
        obtain rfl := hlinks.eq_nil hnull
        exact hread
    | ok r' =>
      rw [happly] at hread
      by_cases hr' : r'.value = .null
      · -- the read is null: a guard ends here, and without one so does the chain
        cases hnull : l.shape.isNullable with
        | true =>
          rw [if_pos rfl, Plan.evaluate_guarded_of_null hread hr']
          cases links with
          | nil => simp [hread, underGuards_of_null hr', hnull]
          | cons next links =>
            rw [List.map_cons, Plan.evaluate_accessAll_of_null hread hr']
            rfl
        | false =>
          obtain rfl := hlinks.eq_nil hnull
          simp [nullableReads, guardAll, hread, underGuards_of_null hr', hnull]
      · -- the read is there: its guard lets the rest through
        rw [← ih hread hr' hlinks]
        split
        · exact Plan.evaluate_guarded_of_ne_null hread hr'
        · rfl

/-- A chain of two links or more is guarded by the fallback of its final
shape. -/
theorem outcome_guarded {c : Chain} (hlen : 2 ≤ c.links.length)
    (hd : c.finalShape.fallback = .ok d) :
    c.guarded.outcome = .ok (guardAll d (nullableReads .root c.links) c.plan) := by
  have hlong : ¬ c.links.length ≤ 1 := by omega
  simp [guarded, hlong, hd]

/-- And one that is guarded has a fallback. -/
theorem fallback_of_guarded {c : Chain} {g : Plan} (hlen : 2 ≤ c.links.length)
    (h : c.guarded.outcome = .ok g) :
    ∃ d, c.finalShape.fallback = .ok d ∧ g = guardAll d (nullableReads .root c.links) c.plan := by
  cases hd : c.finalShape.fallback with
  | error e =>
    have hlong : ¬ c.links.length ≤ 1 := by omega
    simp [guarded, hlong, hd] at h
  | ok d =>
    rw [outcome_guarded hlen hd] at h
    exact ⟨d, rfl, (Except.ok.inj h).symm⟩

/-- A guarded chain under evaluation, on a root that is not null. -/
theorem evaluate_guarded {c : Chain} (hlinks : Linked c.root c.links) (hroot : document ≠ .null) :
    (guardAll d (nullableReads .root c.links) c.plan).evaluate document =
      underGuards d c.finalShape.isNullable (c.plan.evaluate document) :=
  evaluate_guardAll Plan.evaluate_root hroot hlinks

/-- **A guarded chain refines the plain one.** For every chain of two
links or more that a path builds, and every root but null: values are
kept, null references become the fallback, null at the leaf becomes the
fallback where the leaf may be null, and the errors that are left are
those of the plain chain, step for step. -/
theorem guarded_refines_plan {policy : UnsupportedPolicy} {root : Shape} {es : List Element}
    {c : Chain} (hbuild : (build policy root es).outcome = .ok c) (hlen : 2 ≤ c.links.length)
    (hd : c.finalShape.fallback = .ok d) (hroot : document ≠ .null) :
    ∃ g, c.guarded.outcome = .ok g ∧
      (∀ r, c.plan.evaluate document = .ok r → r.value ≠ .null → g.evaluate document = .ok r) ∧
      (∀ p, c.plan.evaluate document = .error (.nullReference p) →
        g.evaluate document = .ok (.constant d)) ∧
      (∀ r, c.plan.evaluate document = .ok r → r.value = .null →
        g.evaluate document = if c.finalShape.isNullable then .ok (.constant d) else .ok r) ∧
      (∀ expected p, c.plan.evaluate document = .error (.unexpectedValue expected p) →
        g.evaluate document = .error (.unexpectedValue expected p)) ∧
      ∀ p, g.evaluate document ≠ .error (.nullReference p) := by
  obtain ⟨rfl, hlinks⟩ := linked_of_build hbuild
  have heval := evaluate_guarded (d := d) hlinks hroot
  refine ⟨_, outcome_guarded hlen hd, ?_, ?_, ?_, ?_, ?_⟩
  · intro r hr hne
    rw [heval, hr, underGuards_of_ne_null hne]
  · intro p hp
    rw [heval, hp]
    rfl
  · intro r hr hnull
    rw [heval, hr, underGuards_of_null hnull]
  · intro expected p hp
    rw [heval, hp]
    rfl
  · intro p
    rw [heval]
    exact underGuards_ne_nullReference _ p

/-! ## A search that finds nothing -/

/-- What stands in for an item that is missing. -/
def noItem : Json := .object [("Status", .string "")]

/-- An item with a type that may be null and a status. -/
def itemShape : Shape :=
  .record
    { name := "Item"
      members := [("Type", .optional .text), ("Status", .text)]
      fallback := some noItem }

/-- A stock of items. -/
def stockShape : Shape :=
  .record { name := "Stock", members := [("items", .list itemShape)] }

/-- The elements of `.items[?(@.Type=='3')].Status`. -/
def statusElements : List Element :=
  [.root, .property "items", .filter "@.Type=='3'", .property "Status"]

/-- Their chain. -/
def statusChain : Chain :=
  ⟨stockShape,
    [⟨.lookup (.member "items"), .list itemShape⟩,
     ⟨.first ⟨[.member "Type"], .equal, .string "3"⟩ .null, itemShape⟩,
     ⟨.lookup (.member "Status"), .text⟩]⟩

/-- A stock without an item of type `3`. -/
def otherStock : Json :=
  .object [("items", .array [.object [("Status", .string "Ready"), ("Type", .string "1")]])]

/-- The plain chain dereferences the null of the search, and the guarded
one yields the empty text. -/
theorem guarded_refines_plan_otherStock :
    (build .reject stockShape statusElements).outcome = .ok statusChain ∧
      2 ≤ statusChain.links.length ∧
      statusChain.finalShape.fallback = .ok (.string "") ∧ otherStock ≠ .null ∧
      statusChain.plan.evaluate otherStock = .error (.nullReference statusChain.plan) ∧
      ∃ g, statusChain.guarded.outcome = .ok g ∧
        g.evaluate otherStock = .ok (.constant (.string "")) := by
  have hbuild : (build .reject stockShape statusElements).outcome = .ok statusChain := rfl
  have hlen : 2 ≤ statusChain.links.length := by decide
  have hd : statusChain.finalShape.fallback = .ok (.string "") := rfl
  have hroot : otherStock ≠ .null := nofun
  have hplain : statusChain.plan.evaluate otherStock = .error (.nullReference statusChain.plan) :=
    rfl
  obtain ⟨g, hg, -, hnull, -⟩ := guarded_refines_plan hbuild hlen hd hroot
  exact ⟨hbuild, hlen, hd, hroot, hplain, g, hg, hnull _ hplain⟩

end Chain

end PathAccess
