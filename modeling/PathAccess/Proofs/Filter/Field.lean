import PathAccess.Proofs.Chain.Resolution
import PathAccess.Proofs.Comparison
import PathAccess.Proofs.Filter.Clause
import PathAccess.Proofs.Plan.Evaluation
/-!
# The field that a filter compares

The field of an element is read in two ways. A predicate takes null
wherever an entry is missing; the plan of the same lookups fails behind
null, and where a map lacks the last key it takes the zero of the map's
values. The two agree but for one kind of elements, those that lack a
key of a map whose values are never null: there the plan reads a zero
and the predicate null.
-/

namespace PathAccess

/-! ## Reading with null for what is missing -/

namespace Json

/-- **The value under names**, which is null where an entry is missing or
its holder is no object. -/
def fieldAt (j : Json) (names : List String) : Json :=
  names.foldl (fun value name => (value.get? name).getD .null) j

@[simp] theorem fieldAt_nil (j : Json) : j.fieldAt [] = j := rfl

@[simp] theorem fieldAt_cons (j : Json) (name : String) (names : List String) :
    j.fieldAt (name :: names) = ((j.get? name).getD .null).fieldAt names := rfl

/-- Nothing but null is under null. -/
@[simp] theorem fieldAt_null (names : List String) : null.fieldAt names = null := by
  induction names with
  | nil => rfl
  | cons name names ih => exact ih

end Json

/-! ## Compiling a predicate -/

namespace Filter

variable {text literal : String} {clause : Clause} {element field : Shape} {p : Predicate}
variable {value : Json} {found : Option Json}

/-- The predicate of a clause: its names are resolved, its operator has
an order where it asks for one, and its literal is one of the field. -/
theorem Predicate.ofClause_eq_ok_iff :
    ofClause text clause element = .ok p ↔
      ∃ shape, Lookup.resolveAll element clause.names = .ok (p.lookups, shape) ∧
        (clause.op.isRelational = true → shape.isOrderable = true) ∧
        clause.op = p.op ∧ Filter.operand clause shape = .ok p.operand := by
  obtain ⟨lookups, op, value⟩ := p
  rw [ofClause]
  cases hresolve : Lookup.resolveAll element clause.names with
  | error e => simp [bind, Except.bind]
  | ok found =>
    obtain ⟨found, shape⟩ := found
    simp only [bind, Except.bind, throw, throwThe, MonadExceptOf.throw, pure, Except.pure]
    constructor
    · intro h
      split at h
      · cases h
      · next horder =>
        cases hoperand : Filter.operand clause shape with
        | error e =>
          rw [hoperand] at h
          cases h
        | ok v =>
          rw [hoperand] at h
          cases h
          exact ⟨shape, rfl, by simpa using horder, rfl, hoperand⟩
    · rintro ⟨_, hfound, horder, rfl, hoperand⟩
      cases hfound
      rw [if_neg (by simpa using horder), hoperand]

/-- **What compiling a predicate asks for.** -/
theorem Predicate.compile_eq_ok_iff :
    compile text element = .ok p ↔
      ∃ clause, Clause.parse text = .ok clause ∧ ofClause text clause element = .ok p := by
  cases hparse : Clause.parse text <;> simp [compile, hparse, bind, Except.bind]

/-- The field is the value under the names of the lookups. -/
theorem Predicate.field_eq_fieldAt (p : Predicate) (element : Json) :
    p.field element = element.fieldAt (p.lookups.map Lookup.key) := by
  rw [field, Json.fieldAt, List.foldl_map]

theorem orMismatch_eq_ok_iff : orMismatch literal field found = .ok value ↔ found = some value := by
  cases found <;> simp [orMismatch]

/-- A literal of a shape that is never null is not null. -/
theorem operand_ne_null (h : operand clause field = .ok value)
    (hfield : field.isValueKind = true) : value ≠ .null := by
  rintro rfl
  cases field with
  | bool =>
    have hbool := orMismatch_eq_ok_iff.1 h
    grind [boolLiteral?]
  | integer =>
    have hwhole := orMismatch_eq_ok_iff.1 h
    simp [wholeLiteral?] at hwhole
  | float =>
    have hfloat := orMismatch_eq_ok_iff.1 h
    simp [floatLiteral?] at hfloat
  | _ => cases hfield

end Filter

/-! ## Keys that are missing -/

/-- **The names end in a key that is missing** from a map whose values
are never null, and the entries in front of it are there. -/
inductive MissesKey : Shape → List String → Json → Prop where
  | last {current value : Shape} {key : String} {j : Json} :
      current.nonNull = .map value → value.isValueKind = true → j.get? key = none →
      MissesKey current [key] j
  | entry {current shape : Shape} {name : String} {names : List String} {l : Lookup}
      {j inner : Json} :
      Lookup.resolve current name = .ok (l, shape) → j.get? name = some inner →
      MissesKey shape names inner → MissesKey current (name :: names) j

section Reading

variable {current shape : Shape} {name : String} {names : List String} {l : Lookup}
variable {links : List Link} {document inner j : Json} {base : Plan} {r r' : Reading}

/-- An entry that is there does not matter. -/
theorem missesKey_iff_of_get? (hl : Lookup.resolve current name = .ok (l, shape))
    (hget : j.get? name = some inner) :
    MissesKey current (name :: names) j ↔ MissesKey shape names inner := by
  constructor
  · intro h
    cases h with
    | last _ _ hnone => rw [hget] at hnone; cases hnone
    | entry hl' hget' h =>
      cases hl.symm.trans hl'
      cases hget.symm.trans hget'
      exact h
  · exact .entry hl hget

/-- Where an entry is missing, the names miss a key only if this is the
last one, of a map whose values are never null. -/
theorem MissesKey.isValueKind_of_get? (h : MissesKey current (name :: names) j)
    (hl : Lookup.resolve current name = .ok (l, shape)) (hget : j.get? name = none) :
    l.miss = shape.zero ∧ shape.isValueKind = true := by
  cases h with
  | last hmap hkind _ =>
    rcases Lookup.miss_of_resolve hl with ⟨hmap', hmiss⟩ | ⟨hmap', -⟩
    · cases hmap.symm.trans hmap'
      exact ⟨hmiss, hkind⟩
    · exact absurd hmap (hmap' _)
  | entry _ hget' _ => rw [hget] at hget'; cases hget'

/-- **Nothing is read behind a missing entry**: what a lookup has for it is
null, or else of a shape that no name stands behind. -/
theorem Resolves.eq_nil_of_missing (h : Resolves shape names links)
    (hl : Lookup.resolve current name = .ok (l, shape)) (hvalue : r.value = l.miss)
    (hbase : base.evaluate document = .ok r)
    (hread : (base.accessAll (links.map Link.step)).evaluate document = .ok r') :
    names = [] ∧ links = [] := by
  cases h with
  | nil => exact ⟨rfl, rfl⟩
  | cons hl' _ =>
    have hnullable := (Chain.follows_of_resolve hl').isNullable
    have hnull : r.value = .null := by
      rcases Lookup.miss_of_resolve hl with ⟨-, hmiss⟩ | ⟨-, hmiss⟩
      · rw [hvalue, hmiss, Shape.zero_of_isNullable hnullable]
      · rw [hvalue, hmiss]
    rw [List.map_cons, Plan.evaluate_accessAll_of_null hbase hnull] at hread
    cases hread

/-- **What a plan of lookups reads** is the value under the names, but
for a missing key, where it is the zero of the map's values and there is
no value under the names. By induction on the names; only the last entry
may be missing, since what is read for it admits no further step. -/
theorem Resolves.value_of_evaluate (h : Resolves current names links)
    (hbase : base.evaluate document = .ok r)
    (hread : (base.accessAll (links.map Link.step)).evaluate document = .ok r') :
    (¬ MissesKey current names r.value → r'.value = r.value.fieldAt names) ∧
      (MissesKey current names r.value →
        r'.value = (lastShape current links).zero ∧ r.value.fieldAt names = .null ∧
          (lastShape current links).isValueKind = true) := by
  induction h generalizing base r with
  | nil =>
    cases hbase.symm.trans hread
    exact ⟨fun _ => rfl, nofun⟩
  | @cons current shape name names l links hl hlinks ih =>
    rw [List.map_cons, Plan.accessAll_cons] at hread
    cases hstep : (base.access (.lookup l)).evaluate document with
    | error e =>
      rw [Plan.evaluate_accessAll_of_error hstep] at hread
      cases hread
    | ok r₁ =>
      have hvalue := Plan.value_of_evaluate_lookup hbase hstep
      rw [Lookup.key_of_resolve hl] at hvalue
      cases hget : r.value.get? name with
      | some inner =>
        have hmore := ih hstep hread
        rw [hvalue, hget, Option.getD_some] at hmore
        rwa [missesKey_iff_of_get? hl hget, Json.fieldAt_cons, hget, Option.getD_some]
      | none =>
        rw [hget, Option.getD_none] at hvalue
        obtain ⟨rfl, rfl⟩ := hlinks.eq_nil_of_missing hl hvalue hstep hread
        cases hstep.symm.trans hread
        rw [Json.fieldAt_cons, hget, Option.getD_none, Json.fieldAt_null, hvalue]
        refine ⟨fun hnot => ?_, fun hmisses => ?_⟩
        · rcases Lookup.miss_of_resolve hl with ⟨hmap, hmiss⟩ | ⟨-, hmiss⟩
          · have hkind : ¬ shape.isValueKind = true := fun hkind => hnot (.last hmap hkind hget)
            rw [hmiss, Shape.zero_of_isNullable (by simpa [Shape.isNullable] using hkind)]
          · exact hmiss
        · obtain ⟨hmiss, hkind⟩ := hmisses.isValueKind_of_get? hl hget
          exact ⟨hmiss, rfl, hkind⟩

end Reading

/-! ## Predicates and plans -/

namespace Filter.Predicate

variable {text : String} {element : Shape} {p : Predicate}

/-- **A predicate tests what the plan of its names reads**, on every
element but those that miss a key of a map whose values are never null.
On these the plan reads the zero of the values, while the predicate tests
null and holds for the operator `!=` alone. -/
theorem holds_of_value (h : compile text element = .ok p) :
    ∃ clause links, Clause.parse text = .ok clause ∧ Resolves element clause.names links ∧
      links.map Link.step = p.lookups.map Step.lookup ∧
      ∀ item v, (Chain.mk element links).plan.value item = .ok v →
        (¬ MissesKey element clause.names item → p.holds item = p.op.test v p.operand) ∧
          (MissesKey element clause.names item →
            v = (lastShape element links).zero ∧ p.holds item = (p.op == .notEqual)) := by
  obtain ⟨clause, hparse, hclause⟩ := compile_eq_ok_iff.1 h
  obtain ⟨field, hlookups, -, -, hoperand⟩ := ofClause_eq_ok_iff.1 hclause
  obtain ⟨links, hlinks, rfl, hsteps, hkeys⟩ := Resolves.of_resolveAll hlookups
  refine ⟨clause, links, hparse, hlinks, hsteps, fun item v hv => ?_⟩
  obtain ⟨r, hr, rfl⟩ := Plan.value_eq_ok_iff.1 hv
  obtain ⟨hthere, hmissing⟩ := hlinks.value_of_evaluate Plan.evaluate_root hr
  rw [holds, field_eq_fieldAt, hkeys]
  constructor
  · intro hnot
    rw [hthere hnot]
    rfl
  · intro hmisses
    obtain ⟨hzero, hnull, hkind⟩ := hmissing hmisses
    refine ⟨hzero, ?_⟩
    rw [← Comparison.test_null_left (operand_ne_null hoperand hkind), ← hnull]
    rfl

/-! ## A count that is missing -/

/-- The predicate that a count of pears is zero. -/
def noPears : Predicate :=
  ⟨[.mapKey "pears" .zero], .equal, .zero⟩

theorem parse_noPears : Clause.parse "@.pears==0" = .ok ⟨["pears"], .equal, "0", false⟩ :=
  Clause.parse_eq_ok_iff.2 (by decide +kernel)

theorem compile_noPears : compile "@.pears==0" (.map .integer) = .ok noPears := by
  have hliteral : wholeLiteral? "0" = some .zero := rfl
  refine compile_eq_ok_iff.2 ⟨_, parse_noPears, ofClause_eq_ok_iff.2 ⟨_, rfl, nofun, rfl, ?_⟩⟩
  exact orMismatch_eq_ok_iff.2 hliteral

/-- A count of zero is read and tested. Where there is none the plan
still reads zero, and the predicate does not hold. -/
theorem holds_of_value_noPears :
    compile "@.pears==0" (.map .integer) = .ok noPears ∧
      ¬ MissesKey (.map .integer) ["pears"] (.object [("pears", .zero)]) ∧
      noPears.holds (.object [("pears", .zero)]) = noPears.op.test .zero noPears.operand ∧
      MissesKey (.map .integer) ["pears"] (.object []) ∧
      noPears.holds (.object []) = (noPears.op == .notEqual) := by
  have hthere : ¬ MissesKey (.map .integer) ["pears"] (.object [("pears", .zero)]) := by
    rintro (⟨-, -, hget⟩ | ⟨-, -, hmore⟩)
    · cases hget
    · cases hmore
  have hmisses : MissesKey (.map .integer) ["pears"] (.object []) := .last rfl rfl rfl
  obtain ⟨clause, links, hparse, hlinks, -, hvalue⟩ := holds_of_value compile_noPears
  cases parse_noPears.symm.trans hparse
  cases hlinks with
  | cons hl hnil =>
    cases hl
    cases hnil
    exact ⟨compile_noPears, hthere, (hvalue _ _ rfl).1 hthere, hmisses,
      ((hvalue _ _ rfl).2 hmisses).2⟩

/-- **A predicate may test another value than the plan of its names
reads**: where a count is missing the plan reads zero, and the predicate
that asks for zero is false. -/
theorem exists_holds_ne_test :
    ∃ clause links v, compile "@.pears==0" (.map .integer) = .ok noPears ∧
      Clause.parse "@.pears==0" = .ok clause ∧ Resolves (.map .integer) clause.names links ∧
      (Chain.mk (.map .integer) links).plan.value (.object []) = .ok v ∧
      noPears.op.test v noPears.operand = true ∧ noPears.holds (.object []) = false :=
  ⟨_, _, .zero, compile_noPears, parse_noPears, .cons rfl .nil, rfl, rfl, rfl⟩

end Filter.Predicate

end PathAccess
