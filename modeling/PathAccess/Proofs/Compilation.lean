import PathAccess.Accessor
import PathAccess.Proofs.Chain.Linked
/-!
# What compiling a path gives

A path compiles through its chain. The plain plan is that of the chain
and is always there; the null-safe one is the guarded chain and may be
missing. Both are announced with the final shape of the chain.
-/

namespace PathAccess

variable {policy : UnsupportedPolicy} {root : Shape} {path : String} {c : Chain}

/-- The chain of a path is built from the elements that its escaped text
is read into. -/
theorem Chain.ofPath_eq_build {escaped : String} {es : List Element}
    (hescape : Path.escape? path = some escaped) (hread : Path.read escaped = .ok es) :
    ofPath policy root path = build policy root es := by
  rw [ofPath, hescape]
  simp only [hread]

/-- And a path has no other chain. -/
theorem Chain.exists_build_of_ofPath (h : (ofPath policy root path).outcome = .ok c) :
    ∃ escaped es, Path.escape? path = some escaped ∧ Path.read escaped = .ok es ∧
      (build policy root es).outcome = .ok c := by
  simp only [ofPath] at h
  split at h
  · cases h
  · next escaped hescape =>
    split at h
    · cases h
    · next es hread => exact ⟨escaped, es, hescape, hread, h⟩

/-- **The links of a path's chain stand behind each other.** -/
theorem Chain.linked_of_ofPath (h : (ofPath policy root path).outcome = .ok c) :
    c.root = root ∧ Linked root c.links := by
  obtain ⟨_, _, -, -, hbuild⟩ := exists_build_of_ofPath h
  exact linked_of_build hbuild

namespace Accessor

/-- A path whose chain has a plan compiles to that plan. -/
theorem outcome_compile {options : CompileOptions} {plan : Plan}
    (h : (Chain.ofPath options.unsupported root path).outcome = .ok c)
    (hplan : (c.planWith options).outcome = .ok plan) :
    (compile options root path).outcome =
      .ok ⟨path, plan, c.finalShape, options.nullSafe⟩ := by
  simp [compile, h, hplan]

/-- Without guards the plan of the chain is always there. -/
theorem outcome_compile_plain (h : (Chain.ofPath policy root path).outcome = .ok c) :
    (compile ⟨false, policy⟩ root path).outcome = .ok ⟨path, c.plan, c.finalShape, false⟩ :=
  outcome_compile h rfl

/-- What is compiled is a plan of the path's chain. -/
theorem exists_chain_of_compile {options : CompileOptions} {a : Accessor}
    (h : (compile options root path).outcome = .ok a) :
    ∃ c plan, (Chain.ofPath options.unsupported root path).outcome = .ok c ∧
      (c.planWith options).outcome = .ok plan ∧
      a = ⟨path, plan, c.finalShape, options.nullSafe⟩ := by
  obtain ⟨c, hchain, h⟩ := Traced.exists_of_outcome_bind h
  obtain ⟨plan, hplan, h⟩ := Traced.exists_of_outcome_bind h
  cases h
  exact ⟨c, plan, hchain, hplan, rfl⟩

/-- Compiling with guards gives what guarding the chain gives. -/
theorem guarded_of_compile {a : Accessor} (h : (Chain.ofPath policy root path).outcome = .ok c)
    (ha : (compile ⟨true, policy⟩ root path).outcome = .ok a) :
    c.guarded.outcome = .ok a.plan ∧ a.resultShape = c.finalShape := by
  obtain ⟨c', plan, hc, hplan, rfl⟩ := exists_chain_of_compile ha
  obtain rfl : c = c' := Except.ok.inj (h.symm.trans hc)
  exact ⟨hplan, rfl⟩

/-- Compiling for a type is compiling and checking the shape of the
result. -/
theorem compile_of_compileAs {options : CompileOptions} {requested : Shape} {a : Accessor}
    (h : (compileAs options requested root path).outcome = .ok a) :
    (compile options root path).outcome = .ok a ∧
      checkResult a.resultShape requested = .ok () := by
  obtain ⟨a', ha, h⟩ := Traced.exists_of_outcome_bind h
  obtain ⟨⟨⟩, hcheck, h⟩ := Traced.exists_of_outcome_bind h
  cases h
  exact ⟨ha, hcheck⟩

/-- The check lets only shapes through that convert, `any` apart. -/
theorem convertsTo_of_checkResult {produced requested : Shape}
    (h : checkResult produced requested = .ok ()) (hany : produced.nonNull ≠ .any) :
    produced.nonNull.convertsTo requested.nonNull = true := by
  simp only [checkResult] at h
  split at h
  · assumption
  · cases h

end Accessor

end PathAccess
