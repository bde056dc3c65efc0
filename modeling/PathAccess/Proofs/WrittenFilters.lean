import PathAccess.Proofs.Compilation
import PathAccess.Proofs.Filter.Field
import PathAccess.Proofs.Filter.Written
/-!
# Written filters select what they say

A filter that was written behind a path is cut off, read, resolved and
compiled as the comparison it was written for, whatever its literal
holds. Compiling the whole path gives the links of the path and one
search, and the search finds the first item that satisfies the
comparison.
-/

-- a statement about a list of characters is decided by the list, also where one about all
-- characters can be
attribute [local instance (2000)] List.decidableBAll

namespace PathAccess

open PathAccess.Filter

variable {policy : UnsupportedPolicy} {root element field : Shape} {path : String} {c : Chain}
variable {links : List Link} {f : Written}

/-- A quoted literal is a string where the field is a text or anything. -/
theorem Filter.operand_of_quoted {clause : Clause} (hquoted : clause.quoted = true)
    (hfield : field.nonNull = .text ∨ field.nonNull = .any) :
    operand clause field = .ok (.string clause.literal) := by
  fun_induction Shape.nonNull field with
  | case1 inner ih => simpa [operand, hquoted] using ih hfield
  | case2 s _ => rcases hfield with rfl | rfl <;> simp [operand, hquoted]

namespace Filter.Written

/-- What the filter says of an item. -/
def selects (f : Written) (item : Json) : Bool :=
  f.op.test (item.fieldAt f.names) (.string f.literal)

/-- **A written filter compiles to what it says**, where its field is a
text or anything. -/
theorem exists_compile (hresolves : Resolves element f.names links)
    (hfield : (lastShape element links).nonNull = .text ∨
      (lastShape element links).nonNull = .any) :
    ∃ p, Predicate.compile (String.ofList f.hidden) element = .ok p ∧ p.holds = f.selects := by
  obtain ⟨lookups, hlookups, -, hkeys⟩ := hresolves.exists_lookups
  have horder : (lastShape element links).isOrderable = true := by
    rcases hfield with h | h <;> simp [Shape.isOrderable, h]
  have hoperand : operand f.clause (lastShape element links) = .ok (.string f.literal) :=
    operand_of_quoted rfl hfield
  refine ⟨⟨lookups, f.op, .string f.literal⟩, Predicate.compile_eq_ok_iff.2
    ⟨f.clause, f.parse_hidden, Predicate.ofClause_eq_ok_iff.2
      ⟨_, hlookups, fun _ => horder, rfl, hoperand⟩⟩, funext fun item => ?_⟩
  rw [Predicate.holds, Predicate.field_eq_fieldAt, hkeys]
  rfl

end Filter.Written

/-- A chain of a path comes from what its escaped text is read into. -/
theorem Chain.exists_of_ofPath (h : (ofPath policy root path).outcome = .ok c) :
    ∃ es, Path.placeholder ∉ path.toList ∧
      Path.read (String.ofList (Path.escapeDots path.toList)) = .ok (.root :: es) ∧
      c.root = root ∧ (linksOf policy root es).outcome = .ok c.links := by
  obtain ⟨escaped, out, hescape, hread, hbuild⟩ := exists_build_of_ofPath h
  obtain ⟨hplaceholder, rfl⟩ := Path.escape?_eq_some_iff.1 hescape
  obtain ⟨-, helements⟩ := Path.read_eq_ok_iff.1 hread
  obtain ⟨es, rfl, -⟩ := Path.elements_eq_iff.1 helements
  obtain ⟨hroot, hlinks⟩ := outcome_build_eq_ok_iff.1 hbuild
  exact ⟨es, hplaceholder, hread, hroot, hlinks⟩

/-- **A written filter adds its search to the links of a path**, and to
nothing else. -/
theorem Chain.outcome_ofPath_append_bracket {p : Predicate}
    (htrim : Text.trim path.toList = path.toList)
    (hpath : (ofPath policy root path).outcome = .ok c)
    (helement : c.finalShape.element? = some element)
    (hp : Predicate.compile (String.ofList f.hidden) element = .ok p) :
    (ofPath policy root (path ++ f.bracket)).outcome =
      .ok (c.push (.first p element.zero) element) := by
  obtain ⟨es, hplaceholder, hread, hroot, hlinks⟩ := exists_of_ofPath hpath
  have hsearch : (linksOf policy c.finalShape [.filter (String.ofList f.hidden)]).outcome =
      .ok [⟨.first p element.zero, element⟩] := by
    simp [linksOf, outcome_linkOf_filter helement hp]
  rw [ofPath_eq_build (f.escape?_append_bracket hplaceholder) (f.read_append_bracket htrim hread),
    outcome_build_eq_ok_iff]
  subst hroot
  exact ⟨rfl, outcome_linksOf_append hlinks hsearch⟩

/-- A search yields the first item that its predicate holds of, or what
it has for none. -/
theorem Plan.value_access_first {base : Plan} {p : Predicate} {miss document : Json}
    {items : List Json} (h : base.value document = .ok (.array items)) :
    (base.access (.first p miss)).value document = .ok ((items.find? p.holds).getD miss) := by
  obtain ⟨r, hr, hitems⟩ := value_eq_ok_iff.1 h
  rw [value, evaluate_access_of_ok hr, applyStep, hitems]
  simp only [Step.apply, Step.readFirst]
  cases items.find? p.holds <;> simp [Except.map, Reading.found, Reading.constant]

/-- **A written filter means what it says.** Behind a path that reads a
collection it compiles to the links of the path and one search, and where
the path reads an array, the first item is read, in the order of the
array, whose field satisfies the operator against the literal, or the
zero of the elements if there is none. -/
theorem Accessor.compile_append_bracket (f : Written)
    (htrim : Text.trim path.toList = path.toList)
    (hpath : (Chain.ofPath policy root path).outcome = .ok c)
    (helement : c.finalShape.element? = some element)
    (hresolves : Resolves element f.names links)
    (hfield : (lastShape element links).nonNull = .text ∨
      (lastShape element links).nonNull = .any) :
    ∃ p a, p.holds = f.selects ∧
      (Chain.ofPath policy root (path ++ f.bracket)).outcome =
        .ok (c.push (.first p element.zero) element) ∧
      (compile ⟨false, policy⟩ root (path ++ f.bracket)).outcome = .ok a ∧
      a.plan = c.plan.access (.first p element.zero) ∧ a.resultShape = element ∧
      ∀ document items, c.plan.value document = .ok (.array items) →
        a.value document = .ok ((items.find? f.selects).getD element.zero) := by
  obtain ⟨p, hp, hholds⟩ := f.exists_compile hresolves hfield
  have hchain := Chain.outcome_ofPath_append_bracket htrim hpath helement hp
  refine ⟨p, _, hholds, hchain, outcome_compile_plain hchain, Chain.plan_push ..,
    Chain.finalShape_push .., fun document items hitems => ?_⟩
  rw [← hholds, value, Chain.plan_push, Plan.value_access_first hitems]

/-! ## A literal that looks like a filter -/

/-- A name with a dot and one with a backslash at its end, and a literal
with operators, parentheses, brackets, quotes and backslashes. -/
def lookalike : Written where
  names := ["a.b", "c d\\"]
  op := .equal
  before := [' ']
  behind := []
  quote := '\''
  literal := "x==\"y.\\\" (or) [z]<="
  isFieldName := by decide
  noBackslash := by decide
  isBlank_before := by decide
  isBlank_behind := by decide
  isQuote_quote := by decide
  noQuote := by decide
  noPlaceholder := by decide

/-- Rows of maps of texts. -/
def rowShape : Shape :=
  .record { name := "Row", members := [("a.b", .map .text), ("id", .text)] }

def tableShape : Shape :=
  .record { name := "Table", members := [("rows", .list rowShape)] }

def rowsChain : Chain :=
  ⟨tableShape, [⟨.lookup (.member "rows"), .list rowShape⟩]⟩

/-- A row with a text under the names. -/
def textRow (id text : String) : Json :=
  .object [("a.b", .object [("c d\\", .string text)]), ("id", .string id)]

def table : Json :=
  .object [("rows", .array [textRow "1" "x", textRow "2" lookalike.literal,
    textRow "3" lookalike.literal])]

/-- The filter is compiled behind a path, and the first of two rows with
the literal is read. -/
theorem Accessor.compile_append_bracket_lookalike :
    ".rows" ++ lookalike.bracket =
        ".rows[?(@.a\\.b.c d\\ =='x==\"y\\.\\\" (or) [z]<=')]" ∧
      (Chain.ofPath .reject tableShape ".rows").outcome = .ok rowsChain ∧
      rowsChain.finalShape.element? = some rowShape ∧
      ∃ a, (compile ⟨false, .reject⟩ tableShape (".rows" ++ lookalike.bracket)).outcome = .ok a ∧
        a.value table = .ok (textRow "2" lookalike.literal) := by
  have hwritten : ".rows" ++ lookalike.bracket =
      ".rows[?(@.a\\.b.c d\\ =='x==\"y\\.\\\" (or) [z]<=')]" := by
    decide +kernel
  have hread : Path.read ".rows" = .ok [.root, .property "rows"] :=
    Path.read_eq_ok_iff.2 (by decide +kernel)
  have hpath : (Chain.ofPath .reject tableShape ".rows").outcome = .ok rowsChain := by
    rw [Chain.ofPath_eq_build (by cbv) hread]
    rfl
  have hresolves : Resolves rowShape lookalike.names _ := .cons rfl (.cons rfl .nil)
  obtain ⟨p, a, -, -, ha, -, -, hvalue⟩ :=
    compile_append_bracket lookalike (by decide) hpath rfl hresolves (.inl rfl)
  refine ⟨hwritten, hpath, rfl, a, ha, ?_⟩
  rw [hvalue table _ rfl]
  rfl

end PathAccess
