import PathAccess.Proofs.Chain.TypeSoundness
/-!
# Null references of null-safe plans

A guard checks what a link reads, and no link reads the root. So the root
is the one value that a null-safe plan dereferences unchecked: its first
step fails if the root is null, and no other step ever fails that way,
whatever the shape of the root, the length of the chain, and the places
of the nulls. The document need not fit, and a null that the shape of the
root allows is no exception.
-/

namespace PathAccess

variable {document d : Json} {p : Plan}

namespace Plan

/-- A plan of one step has the null reference of that step. -/
theorem evaluate_access_root_eq_nullReference_iff {step : Step} :
    (root.access step).evaluate document = .error (.nullReference p) ↔
      document = .null ∧ p = root.access step := by
  rw [evaluate_access_of_ok evaluate_root, applyStep_eq_nullReference_iff]
  rfl

end Plan

namespace Chain

variable {c : Chain} {base g : Plan} {r : Reading} {current : Shape} {l : Link} {links : List Link}

/-- **Guards do not stand before their base.** Behind one that reads null
the first link fails, guarded or not. -/
theorem evaluate_guardAll_of_null (hbase : base.evaluate document = .ok r)
    (hnull : r.value = .null) (hlinks : Linked current (l :: links)) :
    (guardAll d (nullableReads base (l :: links))
        (base.accessAll ((l :: links).map Link.step))).evaluate document =
      .error (.nullReference (base.access l.step)) := by
  have hread : (base.access l.step).evaluate document =
      .error (.nullReference (base.access l.step)) := by
    rw [Plan.evaluate_access_of_ok hbase, Plan.applyStep_of_null hnull]
  rw [guardAll_nullableReads_cons]
  cases hl : l.shape.isNullable with
  | true => exact Plan.evaluate_guarded_of_error hread
  | false =>
    -- a link without a guard is the leaf
    obtain rfl := (Linked.cons_iff.1 hlinks).2.eq_nil hl
    exact hread

/-- **The null reference of a guarded chain** is that of its first link
on a null root. -/
theorem evaluate_guarded_eq_nullReference_iff (hg : c.guarded.outcome = .ok g)
    (hlinks : Linked c.root c.links) :
    g.evaluate document = .error (.nullReference p) ↔
      document = .null ∧ ∃ l, c.links.head? = some l ∧ p = Plan.root.access l.step := by
  obtain ⟨root, links⟩ := c
  match links, hlinks with
  | [], _ =>
    cases hg
    exact ⟨nofun, fun ⟨_, _, hl, _⟩ => nomatch hl⟩
  | [l], _ =>
    cases hg
    simp [plan, Plan.evaluate_access_root_eq_nullReference_iff]
  | l :: next :: links, hlinks =>
    obtain ⟨d, -, hgd⟩ := fallback_of_guarded (by simp) hg
    by_cases hroot : document = .null
    · have hread : g.evaluate document = .error (.nullReference (Plan.root.access l.step)) :=
        hgd ▸ evaluate_guardAll_of_null Plan.evaluate_root hroot hlinks
      rw [hread]
      simp [hroot, eq_comm]
    · rw [hgd, evaluate_guarded hlinks hroot]
      exact ⟨fun h => absurd h (underGuards_ne_nullReference _ p), fun h => absurd h.1 hroot⟩

end Chain

namespace Accessor

variable {policy : UnsupportedPolicy} {root : Shape} {path : String} {a : Accessor}

/-- Reading a result as a type adds no null reference. -/
theorem valueAs_eq_nullReference_iff {t : ResultType} :
    a.valueAs t document = .error (.nullReference p) ↔
      a.value document = .error (.nullReference p) := by
  simp only [valueAs]
  cases a.value document with
  | error e => simp
  | ok j =>
    cases hj : t.decode j <;> simp [hj]

/-- **The null references of a null-safe accessor.** It has one exactly
if the root is null and the path has a link, and then it is the first
link that is named. Every root is covered, fitting or not, and every
type that the result is read as. -/
theorem nullReference_iff_null_root (ha : (compile ⟨true, policy⟩ root path).outcome = .ok a) :
    ∃ c, (Chain.ofPath policy root path).outcome = .ok c ∧
      ∀ document p,
        (a.value document = .error (.nullReference p) ↔
          document = .null ∧ ∃ l, c.links.head? = some l ∧ p = Plan.root.access l.step) ∧
        ∀ t, a.valueAs t document = .error (.nullReference p) ↔
          document = .null ∧ ∃ l, c.links.head? = some l ∧ p = Plan.root.access l.step := by
  obtain ⟨c, hchain, -⟩ := Traced.exists_of_outcome_bind ha
  obtain ⟨rfl, hlinks⟩ := Chain.linked_of_ofPath hchain
  obtain ⟨hg, -⟩ := guarded_of_compile hchain ha
  have hvalue (document : Json) (p : Plan) : a.value document = .error (.nullReference p) ↔
      document = .null ∧ ∃ l, c.links.head? = some l ∧ p = Plan.root.access l.step :=
    Plan.value_eq_error_iff.trans (Chain.evaluate_guarded_eq_nullReference_iff hg hlinks)
  exact ⟨c, hchain, fun document p =>
    ⟨hvalue document p, fun _ => valueAs_eq_nullReference_iff.trans (hvalue document p)⟩⟩

/-! ## A stock that may be missing -/

/-- A stock, or none. -/
def optionalStockShape : Shape := .optional Chain.stockShape

/-- The chain of `.items[?(@.Type=='3')].Status` from there. -/
def optionalStatusChain : Chain := ⟨optionalStockShape, Chain.statusChain.links⟩

/-- The first read of that chain. -/
def itemsRead : Plan := .access .root (.lookup (.member "items"))

theorem outcome_ofPath_optionalStock :
    (Chain.ofPath .reject optionalStockShape ".items[?(@.Type=='3')].Status").outcome =
      .ok optionalStatusChain := by
  have hread : Path.read ".items[?(@.Type=='3')].Status" = .ok Chain.statusElements :=
    Path.read_eq_ok_iff.2 (by decide +kernel)
  rw [Chain.ofPath_eq_build (by cbv) hread]
  rfl

/-- The path, compiled. -/
def optionalStatus : Accessor :=
  { path := ".items[?(@.Type=='3')].Status"
    plan := Chain.guardAll (.string "") (Chain.nullableReads .root optionalStatusChain.links)
      optionalStatusChain.plan
    resultShape := .text
    nullSafe := true }

theorem outcome_compile_optionalStock :
    (compile ⟨true, .reject⟩ optionalStockShape ".items[?(@.Type=='3')].Status").outcome =
      .ok optionalStatus := by
  have hguarded : optionalStatusChain.guarded.outcome = .ok optionalStatus.plan :=
    Chain.outcome_guarded (by decide) rfl
  have hcompile : (compile ⟨true, .reject⟩ optionalStockShape
      ".items[?(@.Type=='3')].Status").outcome = .ok _ :=
    outcome_compile outcome_ofPath_optionalStock hguarded
  exact hcompile

/-- A stock without the item is no null reference, and no stock is one:
of the first step. -/
theorem nullReference_iff_null_root_optionalStock :
    (compile ⟨true, .reject⟩ optionalStockShape ".items[?(@.Type=='3')].Status").outcome =
        .ok optionalStatus ∧
      (∀ p, optionalStatus.value Chain.otherStock ≠ .error (.nullReference p)) ∧
      optionalStatus.value .null = .error (.nullReference itemsRead) := by
  obtain ⟨c, hchain, hnull⟩ := nullReference_iff_null_root outcome_compile_optionalStock
  obtain rfl : optionalStatusChain = c :=
    Except.ok.inj (outcome_ofPath_optionalStock.symm.trans hchain)
  refine ⟨outcome_compile_optionalStock, fun p hp => ?_, ?_⟩
  · exact Chain.otherStock_ne_null ((hnull _ p).1.1 hp).1
  · exact (hnull _ _).1.2 ⟨rfl, _, rfl, rfl⟩

/-- **A null root that its shape allows is dereferenced**: the guards of a
chain are behind its first step. -/
theorem null_root_of_optional_dereferenced :
    optionalStockShape.Fits .strict .null ∧
      (compile ⟨true, .reject⟩ optionalStockShape ".items[?(@.Type=='3')].Status").outcome =
        .ok optionalStatus ∧ optionalStatus.plan.isGuarded = true ∧
      optionalStatus.value .null = .error (.nullReference itemsRead) :=
  ⟨(Shape.fits_null_strict_iff _).2 (.inr ⟨_, rfl⟩), outcome_compile_optionalStock, rfl, rfl⟩

end Accessor

end PathAccess
