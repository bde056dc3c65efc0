import PathAccess.Path.Escape
import PathAccess.Proofs.Chain.Composition
import PathAccess.Proofs.Chain.Linked
/-!
# Names resolved one behind the other

A name is resolved against the shape that the name before it reads, and
gives one link. `Resolves` says so without a path: the same names may
stand in a path, where their links become part of a chain, or in a
filter, where they lead to the compared field. What the links read from
nested objects is what the objects store under the names.
-/

namespace PathAccess

/-- Names behind a shape, each resolved behind the one before it, and
their links. -/
inductive Resolves : Shape → List String → List Link → Prop where
  | nil {current : Shape} : Resolves current [] []
  | cons {current shape : Shape} {name : String} {names : List String} {l : Lookup}
      {links : List Link} :
      Lookup.resolve current name = .ok (l, shape) → Resolves shape names links →
      Resolves current (name :: names) (⟨.lookup l, shape⟩ :: links)

namespace Resolves

variable {current last : Shape} {names : List String} {links : List Link} {lookups : List Lookup}

/-- There is a link for each name. -/
theorem length_eq (h : Resolves current names links) : links.length = names.length := by
  induction h with
  | nil => rfl
  | cons _ _ ih => exact congrArg Nat.succ ih

/-- The links stand behind each other. -/
theorem linked (h : Resolves current names links) : Linked current links := by
  induction h with
  | nil => exact .nil
  | cons hl _ ih => exact .cons (Chain.follows_of_resolve hl) ih

/-- **The links are lookups of the names**, character for character, and
those that resolving the names all at once gives. -/
theorem exists_lookups (h : Resolves current names links) :
    ∃ lookups, Lookup.resolveAll current names = .ok (lookups, lastShape current links) ∧
      links.map Link.step = lookups.map Step.lookup ∧ lookups.map Lookup.key = names := by
  induction h with
  | nil => exact ⟨[], rfl, rfl, rfl⟩
  | cons hl _ ih =>
    obtain ⟨lookups, hall, hsteps, hkeys⟩ := ih
    refine ⟨_ :: lookups, ?_, congrArg (_ :: ·) hsteps, ?_⟩
    · simp only [Lookup.resolveAll, hl, hall, lastShape_cons]
    · rw [List.map_cons, hkeys, Lookup.key_of_resolve hl]

/-- **Names that can be resolved all at once** are resolved one by one,
with the same lookups, up to the same shape. -/
theorem of_resolveAll (h : Lookup.resolveAll current names = .ok (lookups, last)) :
    ∃ links, Resolves current names links ∧ lastShape current links = last ∧
      links.map Link.step = lookups.map Step.lookup ∧ lookups.map Lookup.key = names := by
  induction names generalizing current lookups with
  | nil =>
    cases h
    exact ⟨[], .nil, rfl, rfl, rfl⟩
  | cons name names ih =>
    simp only [Lookup.resolveAll] at h
    cases hl : Lookup.resolve current name with
    | error e => simp [hl] at h
    | ok found =>
      cases hmore : Lookup.resolveAll found.2 names with
      | error e => simp [hl, hmore] at h
      | ok more =>
        obtain ⟨rfl, rfl⟩ : found.1 :: more.1 = lookups ∧ more.2 = last := by
          simpa [hl, hmore] using h
        obtain ⟨links, hlinks, hlast, hsteps, hkeys⟩ := ih hmore
        refine ⟨_, .cons hl hlinks, hlast, congrArg (_ :: ·) hsteps, ?_⟩
        rw [List.map_cons, hkeys, Lookup.key_of_resolve hl]

end Resolves

/-! ## Links of a path -/

namespace Chain

variable {policy : UnsupportedPolicy} {current shape : Shape} {links : List Link}

/-- The link of a property is that of its restored name. -/
theorem outcome_linkOf_property {name : String} {l : Lookup}
    (h : Lookup.resolve current (Path.restore name) = .ok (l, shape)) :
    (linkOf policy current (.property name)).outcome = .ok (some ⟨.lookup l, shape⟩) := by
  simp [linkOf, propertyLink, h]

/-- **The links of properties are those of their restored names.** -/
theorem outcome_linksOf_properties {names : List String}
    (h : Resolves current (names.map Path.restore) links) :
    (linksOf policy current (names.map .property)).outcome = .ok links := by
  induction names generalizing current links with
  | nil =>
    cases h
    rfl
  | cons name names ih =>
    cases h with
    | cons hl hlinks =>
      simp [linksOf, outcome_linkOf_property hl, ih hlinks]

/-- And properties have no other links. -/
theorem resolves_of_linksOf_properties {names : List String}
    (h : (linksOf policy current (names.map .property)).outcome = .ok links) :
    Resolves current (names.map Path.restore) links := by
  induction names generalizing current links with
  | nil =>
    cases h
    exact .nil
  | cons name names ih =>
    obtain ⟨link, more, hlink, hmore, rfl⟩ := exists_of_linksOf_cons h
    obtain ⟨l, hl, hlink⟩ := Traced.exists_of_outcome_bind hlink
    cases hlink
    obtain ⟨⟨lookup, shape⟩, hresolve, hl⟩ := Traced.exists_of_outcome_bind hl
    cases hl
    exact .cons hresolve (ih hmore)

/-- The link of a filter searches with its predicate. -/
theorem outcome_linkOf_filter {text : String} {element : Shape} {p : Filter.Predicate}
    (he : current.element? = some element)
    (hp : Filter.Predicate.compile text element = .ok p) :
    (linkOf policy current (.filter text)).outcome =
      .ok (some ⟨.first p element.zero, element⟩) := by
  simp [linkOf, filterLink, he, hp]

/-- The chain of a path has the links of its elements behind the root. -/
theorem outcome_build_eq_ok_iff {root : Shape} {es : List Element} {c : Chain} :
    (build policy root (.root :: es)).outcome = .ok c ↔
      c.root = root ∧ (linksOf policy root es).outcome = .ok c.links := by
  simp only [build, linksOf, linkOf, Traced.outcome_bind, Traced.outcome_pure, Option.toList_none,
    lastShape_nil, List.nil_append]
  obtain ⟨root', links⟩ := c
  cases hlinks : (linksOf policy root es).outcome with
  | error e => simp
  | ok found =>
    simp only [Except.ok.injEq, Chain.mk.injEq]
    exact and_congr_left fun _ => eq_comm

/-- **The links of a path in two parts are those of its parts**, the
second behind the shape that the first one reads. -/
theorem outcome_linksOf_append {xs ys : List Element} {front back : List Link}
    (hfront : (linksOf policy current xs).outcome = .ok front)
    (hback : (linksOf policy (lastShape current front) ys).outcome = .ok back) :
    (linksOf policy current (xs ++ ys)).outcome = .ok (front ++ back) := by
  simp [linksOf_append, hfront, hback]

end Chain

/-- What a lookup has for a missing entry is the zero of a map's values,
or else null. -/
theorem Lookup.miss_of_resolve {current shape : Shape} {name : String} {l : Lookup}
    (hl : resolve current name = .ok (l, shape)) :
    current.nonNull = .map shape ∧ l.miss = shape.zero ∨
      (∀ value, current.nonNull ≠ .map value) ∧ l.miss = .null := by
  have hfollows := Chain.follows_of_resolve hl
  generalize hlink : (⟨.lookup l, shape⟩ : Link) = link at hfollows
  cases hfollows with
  | mapKey hs => cases hlink; exact .inl ⟨hs, rfl⟩
  | member hs _ => cases hlink; exact .inr ⟨by simp [hs], rfl⟩
  | dynamic hs => cases hlink; exact .inr ⟨by simp [hs], rfl⟩
  | search => cases hlink

/-! ## Reading -/

/-- A lookup reads the entry of its key. -/
theorem Step.apply_lookup_of_get? {l : Lookup} {v w : Json} (h : v.get? l.key = some w) :
    (Step.lookup l).apply v = .ok (.found w) := by
  cases v with
  | object entries =>
    simp only [Json.get?] at h
    simp only [Step.apply, Step.readEntry, h]
  | _ => cases h

/-- Where a lookup applies, it reads the entry, or what it has for an
absent one. -/
theorem Step.value_of_apply_lookup {l : Lookup} {v : Json} {r : Reading}
    (h : (Step.lookup l).apply v = .ok r) : r.value = (v.get? l.key).getD l.miss := by
  cases v with
  | object entries =>
    obtain rfl := Except.ok.inj h
    simp only [Step.readEntry, Json.get?]
    cases Json.entryValue? l.key entries <;> rfl
  | _ => cases h

/-- And so does a plan that goes on with a lookup. -/
theorem Plan.value_of_evaluate_lookup {base : Plan} {document : Json} {l : Lookup} {r r' : Reading}
    (hbase : base.evaluate document = .ok r)
    (hread : (base.access (.lookup l)).evaluate document = .ok r') :
    r'.value = (r.value.get? l.key).getD l.miss := by
  rw [evaluate_access_of_ok hbase, applyStep] at hread
  cases happly : (Step.lookup l).apply r.value with
  | error e => simp [happly] at hread
  | ok r₀ =>
    simp only [happly, Except.ok.injEq] at hread
    rw [← hread, Reading.value_outOf, Step.value_of_apply_lookup happly]

/-- **The value stored under keys**, each in an object that is stored
under the keys before it. -/
inductive Json.Stored : List String → Json → Json → Prop where
  | here (v : Json) : Stored [] v v
  | entry {key : String} {keys : List String} {j inner v : Json} :
      j.get? key = some inner → Stored keys inner v → Stored (key :: keys) j v

/-- **Links read what is stored under their names**, by induction on the
names. -/
theorem Resolves.evaluate_of_stored {current : Shape} {names : List String} {links : List Link}
    {document v : Json} {base : Plan} {r : Reading} (h : Resolves current names links)
    (hbase : base.evaluate document = .ok r) (hstored : Json.Stored names r.value v) :
    ∃ r', (base.accessAll (links.map Link.step)).evaluate document = .ok r' ∧ r'.value = v := by
  induction h generalizing base r with
  | nil =>
    cases hstored
    exact ⟨r, hbase, rfl⟩
  | @cons _ _ _ _ l _ hl _ ih =>
    cases hstored with
    | entry hget hstored =>
      rw [← Lookup.key_of_resolve hl] at hget
      have hstep : (base.access (.lookup l)).evaluate document = _ :=
        Plan.evaluate_access_of_ok hbase
      rw [Plan.applyStep, Step.apply_lookup_of_get? hget] at hstep
      refine ih hstep ?_
      rwa [Reading.value_outOf]

end PathAccess
