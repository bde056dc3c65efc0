import PathAccess.Proofs.Chain.GuardTree
import PathAccess.Proofs.Chain.Resolution
import PathAccess.Proofs.Filter.Field
import PathAccess.Proofs.Path.Escaping
import PathAccess.Proofs.WrittenFilters
/-!
# The names in a plan are restored

A path is read in its escaped form, so the names of its elements may hold
placeholders. There are two ways by which they get into a plan. A
property, quoted or not, is restored before it is resolved; the names of
a filter are restored when the filter is parsed, after dots have parted
them. A lookup has the name it was resolved for, and guards repeat what
the plain plan reads. So no name that a plan looks up, in its guards and
in its filters too, holds a placeholder.
-/

namespace PathAccess

/-! ## The names of a plan -/

/-- The names that a step looks up, which for a search are those of its
predicate. -/
def Step.names : Step → List String
  | lookup l => [l.key]
  | first p _ => p.lookups.map Lookup.key

/-- The names that a plan looks up, wherever they stand in it. -/
def Plan.names : Plan → List String
  | root => []
  | access base step => base.names ++ step.names
  | guarded subject _ body => subject.names ++ body.names

/-- The names that the links of a chain look up. -/
def Chain.names (c : Chain) : List String :=
  c.links.flatMap fun l => l.step.names

theorem Plan.names_accessAll (base : Plan) (steps : List Step) :
    (base.accessAll steps).names = base.names ++ steps.flatMap Step.names := by
  induction steps generalizing base with
  | nil => simp
  | cons step steps ih =>
    rw [accessAll_cons, ih, names, List.append_assoc, List.flatMap_cons]

theorem Plan.mem_names_guardAll {name : String} {d : Json} {subjects : List Plan} {body : Plan} :
    name ∈ (Chain.guardAll d subjects body).names ↔
      (∃ subject ∈ subjects, name ∈ subject.names) ∨ name ∈ body.names := by
  induction subjects with
  | nil => simp [Chain.guardAll]
  | cons subject subjects ih =>
    have hguard : Chain.guardAll d (subject :: subjects) body =
        .guarded subject d (Chain.guardAll d subjects body) := rfl
    rw [hguard, names, List.mem_append, ih, List.exists_mem_cons_iff, or_assoc]

variable {policy : UnsupportedPolicy} {current root : Shape} {c : Chain}

namespace Chain

/-- The plain plan looks up the names of the chain. -/
theorem names_plan (c : Chain) : c.plan.names = c.names := by
  rw [plan, Plan.names_accessAll, List.flatMap_map]
  rfl

/-- **A prefix looks up no other names.** -/
theorem names_upTo_subset (c : Chain) (count : Nat) : (c.upTo count).names ⊆ c.names := by
  rw [upTo, Plan.names_accessAll, List.flatMap_map]
  intro name hname
  obtain ⟨l, hl, hname⟩ := List.mem_flatMap.1 hname
  exact List.mem_flatMap.2 ⟨l, List.mem_of_mem_take hl, hname⟩

/-- **Nor do the guards**, which look at prefixes. -/
theorem names_subset_of_guarded {g : Plan} (h : c.guarded.outcome = .ok g) :
    g.names ⊆ c.names := by
  rcases Nat.lt_or_ge c.links.length 2 with hlt | hlen
  · rw [outcome_guarded_of_short hlt] at h
    cases h
    exact names_plan c ▸ List.Subset.refl _
  · obtain ⟨d, -, rfl⟩ := fallback_of_guarded hlen h
    intro name hname
    rcases Plan.mem_names_guardAll.1 hname with ⟨subject, hsubject, hname⟩ | hname
    · rw [nullableReads_eq] at hsubject
      obtain ⟨i, -, rfl⟩ := List.mem_map.1 hsubject
      exact names_upTo_subset c (i + 1) hname
    · exact names_plan c ▸ hname

theorem names_subset_of_planWith {options : CompileOptions} {p : Plan}
    (h : (c.planWith options).outcome = .ok p) : p.names ⊆ c.names := by
  rw [planWith] at h
  split at h
  · exact names_subset_of_guarded h
  · cases h
    exact names_plan c ▸ List.Subset.refl _

end Chain

/-! ## Where the names come from -/

theorem Path.placeholder_not_mem_restore (name : String) :
    placeholder ∉ (restore name).toList := by
  rw [restore, String.toList_ofList]
  exact placeholder_not_mem_restoreDots name.toList

/-- The names of a filter are restored when it is parsed. -/
theorem Filter.Clause.placeholder_not_mem_of_parse {text : String} {clause : Clause}
    (h : parse text = .ok clause) : ∀ name ∈ clause.names, Path.placeholder ∉ name.toList := by
  obtain ⟨⟨left, op, right⟩, -, rfl⟩ := Option.map_eq_some_iff.1 (parse_eq_ok_iff.1 h)
  intro name hname
  obtain ⟨part, -, rfl⟩ := List.mem_map.1 hname
  rw [String.toList_ofList]
  exact Path.placeholder_not_mem_restoreDots part

/-- And a predicate looks up no others. -/
theorem Filter.Predicate.placeholder_not_mem_of_compile {text : String} {element : Shape}
    {p : Predicate} (h : compile text element = .ok p) :
    ∀ name ∈ p.lookups.map Lookup.key, Path.placeholder ∉ name.toList := by
  obtain ⟨clause, hparse, hclause⟩ := compile_eq_ok_iff.1 h
  obtain ⟨shape, hresolve, -, -, -⟩ := ofClause_eq_ok_iff.1 hclause
  obtain ⟨-, -, -, -, hkeys⟩ := Resolves.of_resolveAll hresolve
  rw [hkeys]
  exact Clause.placeholder_not_mem_of_parse hparse

namespace Chain

/-- **A link looks up restored names**, whichever element it stands for. -/
theorem StandsFor.placeholder_not_mem {e : Element} {l : Link} (h : StandsFor current e l) :
    ∀ name ∈ l.step.names, Path.placeholder ∉ name.toList := by
  cases h with
  | @property name lookup _ hresolve =>
    have hkey : lookup.key = Path.restore name := Lookup.key_of_resolve hresolve
    simp only [Step.names, List.mem_singleton, forall_eq, hkey]
    exact Path.placeholder_not_mem_restore name
  | filter _ hp => exact Filter.Predicate.placeholder_not_mem_of_compile hp

/-- **And so does the chain of a path.** -/
theorem placeholder_not_mem_names {path : String}
    (h : (ofPath policy root path).outcome = .ok c) :
    ∀ name ∈ c.names, Path.placeholder ∉ name.toList := by
  obtain ⟨_, _, -, -, hbuild⟩ := exists_build_of_ofPath h
  intro name hname
  obtain ⟨l, hl, hname⟩ := List.mem_flatMap.1 hname
  obtain ⟨e, -, _, hstands⟩ := exists_standsFor_of_mem (links_of_build hbuild).2 hl
  exact hstands.placeholder_not_mem name hname

end Chain

/-- **No placeholder reaches a plan**, plain or guarded. -/
theorem Accessor.placeholder_not_mem_names {options : CompileOptions} {path : String}
    {a : Accessor} (h : (compile options root path).outcome = .ok a) :
    ∀ name ∈ a.plan.names, Path.placeholder ∉ name.toList := by
  obtain ⟨c, plan, hchain, hplan, rfl⟩ := exists_chain_of_compile h
  intro name hname
  exact Chain.placeholder_not_mem_names hchain name (Chain.names_subset_of_planWith hplan hname)

/-- **Escaping loses nothing and leaves nothing behind.** A path can be
escaped just if it does not hold the placeholder. The escaped text holds
no backslash directly before a dot. Written out it is the path again, so
that no other path has it. Its dots are the bare dots of the path, and
restored it is the path without the backslashes before its dots. And by
whatever options and behind whatever root a path is compiled, no name in
its plan, be it in a filter, holds the placeholder. -/
theorem Accessor.escaping_lossless (path : String) :
    (Path.escape? path = none ↔ Path.placeholder ∈ path.toList) ∧
      (∀ escaped, Path.escape? path = some escaped → Path.Escapes path escaped ∧
        ∀ other, Path.escape? other = some escaped → other = path) ∧
      ∀ options root a, (compile options root path).outcome = .ok a →
        ∀ name ∈ a.plan.names, Path.placeholder ∉ name.toList := by
  refine ⟨Path.escape?_eq_none_iff, fun escaped h => ?_, fun options root a => ?_⟩
  · exact ⟨Path.escapes_of_escape? h, fun other hother => Path.escape?_inj hother h⟩
  · exact placeholder_not_mem_names

/-! ## Dots in three places -/

/-- A path with escaped dots in a filter, between quotes and in dotted
form. The last of them has a backslash of the name's own before it. -/
def dottedPath : String := ".rows[?(@.a\\.b.c\\.d=='x')]['a\\.b'].e\\\\.f"

/-- The path as it is read. -/
def dottedEscaped : String :=
  ".rows[?(@.a\uE000b.c\uE000d=='x')]['a\uE000b'].e\\\uE000f"

/-- The chain of the path behind a table. -/
def dottedChain : Chain :=
  ⟨tableShape,
    [⟨.lookup (.member "rows"), .list rowShape⟩,
     ⟨.first ⟨[.member "a.b", .mapKey "c.d" .null], .equal, .string "x"⟩ .null, rowShape⟩,
     ⟨.lookup (.member "a.b"), .map .text⟩, ⟨.lookup (.mapKey "e\\.f" .null), .text⟩]⟩

/-- Compiled with guards, the path has all its dots back. -/
theorem Accessor.escaping_lossless_dottedPath :
    Path.escape? dottedPath = some dottedEscaped ∧ Path.Escapes dottedPath dottedEscaped ∧
      ∃ a, (compile ⟨true, .reject⟩ tableShape dottedPath).outcome = .ok a ∧
        a.plan.isGuarded = true ∧ dottedChain.names = ["rows", "a.b", "c.d", "a.b", "e\\.f"] ∧
        a.plan.names ⊆ dottedChain.names ∧
        ∀ name ∈ a.plan.names, Path.placeholder ∉ name.toList := by
  have hescape : Path.escape? dottedPath = some dottedEscaped := by cbv
  have hread : Path.read dottedEscaped = .ok
      [.root, .property "rows", .filter "@.a\uE000b.c\uE000d=='x'", .property "a\uE000b",
        .property "e\\\uE000f"] := Path.read_eq_ok_iff.2 (by decide +kernel)
  have hchain : (Chain.ofPath .reject tableShape dottedPath).outcome = .ok dottedChain := by
    rw [Chain.ofPath_eq_build hescape hread]
    rfl
  have hguarded : dottedChain.guarded.outcome = .ok _ := Chain.outcome_guarded (by decide) rfl
  have hcompile : (compile ⟨true, .reject⟩ tableShape dottedPath).outcome = .ok _ :=
    outcome_compile hchain hguarded
  obtain ⟨-, hescapes, hnames⟩ := escaping_lossless dottedPath
  exact ⟨hescape, (hescapes _ hescape).1, _, hcompile, rfl, rfl,
    Chain.names_subset_of_guarded hguarded, hnames _ _ _ hcompile⟩

end PathAccess
