import PathAccess.Proofs.Chain.Resolution
import PathAccess.Proofs.Compilation
import PathAccess.Proofs.Path.Writing
/-!
# Escaped names reach their entries

Names may hold dots, backslashes, quotes and blanks. Written into a path
with a backslash in front of every dot, they pass escaping, trimming and
reading as what they are, and are restored when they are resolved: the
chain is that of the names, and its plan reads what is stored under them.
-/

namespace PathAccess

open PathAccess.Path

variable {policy : UnsupportedPolicy} {root : Shape} {keys : List String} {links : List Link}

/-- Hidden names are restored to what they were. -/
theorem map_restore_map_hide (hkeys : ∀ k ∈ keys, Writable k) :
    (keys.map hide).map restore = keys := by
  rw [List.map_map]
  exact (List.map_congr_left fun k hk => restore_hide (hkeys k hk).noPlaceholder).trans
    (List.map_id keys)

/-- **The chain of written names** is that of the names. -/
theorem Chain.outcome_ofPath_writeNames (hne : keys ≠ []) (hkeys : ∀ k ∈ keys, Writable k)
    (hback : ∀ k ∈ keys.dropLast, k.toList.getLast? ≠ some '\\')
    (hlast : ∀ k ∈ keys.getLast?, ∀ c ∈ k.toList.getLast?, Text.isBlank c = false)
    (hresolves : Resolves root keys links) :
    (ofPath policy root (String.ofList (writeNames keys))).outcome = .ok ⟨root, links⟩ := by
  obtain ⟨escaped, hescape, hread⟩ := read_escape_writeNames hne hkeys hback hlast
  rw [← map_restore_map_hide hkeys] at hresolves
  have hlinks : (linksOf policy root ((keys.map hide).map .property)).outcome = .ok links :=
    outcome_linksOf_properties hresolves
  rw [List.map_map] at hlinks
  rw [ofPath_eq_build hescape hread, outcome_build_eq_ok_iff]
  exact ⟨rfl, hlinks⟩

/-- **Escaped names survive compilation.** A path of written names
compiles, under either policy, to the links of their resolution, one
lookup for each name and of that name; and its plan reads the value that
nested objects store under the names. -/
theorem Accessor.compile_writeNames (hne : keys ≠ []) (hkeys : ∀ k ∈ keys, Writable k)
    (hback : ∀ k ∈ keys.dropLast, k.toList.getLast? ≠ some '\\')
    (hlast : ∀ k ∈ keys.getLast?, ∀ c ∈ k.toList.getLast?, Text.isBlank c = false)
    (hresolves : Resolves root keys links) :
    (Chain.ofPath policy root (String.ofList (writeNames keys))).outcome = .ok ⟨root, links⟩ ∧
      links.length = keys.length ∧
      (∃ lookups : List Lookup, links.map Link.step = lookups.map Step.lookup ∧
        lookups.map Lookup.key = keys) ∧
      ∃ a, (compile ⟨false, policy⟩ root (String.ofList (writeNames keys))).outcome = .ok a ∧
        a.plan = Plan.root.accessAll (links.map Link.step) ∧
        a.resultShape = lastShape root links ∧
        ∀ document v, Json.Stored keys document v → a.value document = .ok v := by
  have hchain : (Chain.ofPath policy root _).outcome = _ :=
    Chain.outcome_ofPath_writeNames hne hkeys hback hlast hresolves
  obtain ⟨lookups, -, hsteps, hlookups⟩ := hresolves.exists_lookups
  refine ⟨hchain, hresolves.length_eq, ⟨lookups, hsteps, hlookups⟩, _,
    outcome_compile_plain hchain, rfl, rfl, fun document v hstored => ?_⟩
  exact Plan.value_eq_ok_iff.2 (hresolves.evaluate_of_stored Plan.evaluate_root hstored)

/-! ## Dots and backslashes -/

/-- Names with a dot inside, a backslash in front of a dot, and a
backslash at the end. -/
def awkwardNames : List String :=
  ["a.b", "\\.", "c\\"]

/-- A record of maps of values of any kind. -/
def awkwardRoot : Shape :=
  .record { name := "Root", members := [("a.b", .map .any)] }

/-- An object that stores a value under the names. -/
def awkwardDocument : Json :=
  .object [("a.b", .object [("\\.", .object [("c\\", .bool true)])])]

/-- The names are written, compiled and read. -/
theorem Accessor.compile_writeNames_awkwardNames :
    String.ofList (writeNames awkwardNames) = ".a\\.b.\\\\..c\\" ∧ awkwardNames ≠ [] ∧
      (∀ k ∈ awkwardNames, Writable k) ∧
      (∀ k ∈ awkwardNames.dropLast, k.toList.getLast? ≠ some '\\') ∧
      (∀ k ∈ awkwardNames.getLast?, ∀ c ∈ k.toList.getLast?, Text.isBlank c = false) ∧
      ∃ a, (compile ⟨false, .reject⟩ awkwardRoot ".a\\.b.\\\\..c\\").outcome = .ok a ∧
        a.value awkwardDocument = .ok (.bool true) := by
  have hne : awkwardNames ≠ [] := by decide
  have hkeys : ∀ k ∈ awkwardNames, Writable k := by decide
  have hback : ∀ k ∈ awkwardNames.dropLast, k.toList.getLast? ≠ some '\\' := by decide
  have hlast : ∀ k ∈ awkwardNames.getLast?, ∀ c ∈ k.toList.getLast?, Text.isBlank c = false := by
    rintro k ⟨⟩ c ⟨⟩
    decide
  have hresolves : Resolves awkwardRoot awkwardNames _ := .cons rfl (.cons rfl (.cons rfl .nil))
  have hstored : Json.Stored awkwardNames awkwardDocument (.bool true) :=
    .entry rfl (.entry rfl (.entry rfl (.here _)))
  obtain ⟨-, -, -, a, ha, -, -, hvalue⟩ :=
    @compile_writeNames .reject _ _ _ hne hkeys hback hlast hresolves
  have hpath : String.ofList (writeNames awkwardNames) = ".a\\.b.\\\\..c\\" := by decide +kernel
  rw [hpath] at ha
  exact ⟨hpath, hne, hkeys, hback, hlast, a, ha, hvalue _ _ hstored⟩

end PathAccess
