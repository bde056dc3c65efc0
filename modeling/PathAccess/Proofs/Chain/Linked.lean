import PathAccess.Chain.Building
/-!
# Links that stand behind each other

What building a chain promises of its links. A lookup stands behind the
shape that resolved its name, a search behind a shape that has elements,
and each link reads the shape that the next one stands behind. Nothing
is said of the path, of the policy or of the names: the laws of guarding
and of evaluation are read off this relation alone. Which element a link
comes from is a relation of its own (`Chain.StandsFor`), with a case for
each kind that gives one, and what is proved of the links is read off it.
-/

namespace PathAccess

/-- A link that may stand behind a value of a shape. There is one case
for each way in which a path goes on, with the shape that decides it. -/
inductive Link.Follows : Shape → Link → Prop where
  | mapKey {current value : Shape} {key : String} :
      current.nonNull = .map value → Follows current ⟨.lookup (.mapKey key value.zero), value⟩
  | member {current shape : Shape} {r : Record Shape} {name : String} :
      current.nonNull = .record r → r.member? name = some shape →
      Follows current ⟨.lookup (.member name), shape⟩
  | dynamic {current : Shape} {name : String} :
      current.nonNull = .any → Follows current ⟨.lookup (.member name), .any⟩
  | search {current element : Shape} {p : Filter.Predicate} :
      current.nonNull = .list element → Follows current ⟨.first p element.zero, element⟩

/-- Links of which each stands behind the one before it, and the first
behind a shape. -/
inductive Linked : Shape → List Link → Prop where
  | nil {current : Shape} : Linked current []
  | cons {current : Shape} {l : Link} {links : List Link} :
      l.Follows current → Linked l.shape links → Linked current (l :: links)

theorem Linked.cons_iff {current : Shape} {l : Link} {links : List Link} :
    Linked current (l :: links) ↔ l.Follows current ∧ Linked l.shape links :=
  ⟨fun h => by cases h with | cons hl hlinks => exact ⟨hl, hlinks⟩, fun h => .cons h.1 h.2⟩

/-! ## Only nullable shapes are followed -/

/-- A shape may be null if what is under its optional layers may. -/
theorem Shape.isNullable_of_nonNull {s : Shape} (h : s.nonNull.isNullable = true) :
    s.isNullable = true := by
  cases s with
  | optional => rfl
  | _ => exact h

/-- **A shape that is followed may be null.** -/
theorem Link.Follows.isNullable {current : Shape} {l : Link} (h : l.Follows current) :
    current.isNullable = true := by
  apply Shape.isNullable_of_nonNull
  cases h with
  | mapKey hs => rw [hs]; rfl
  | member hs _ => rw [hs]; rfl
  | dynamic hs => rw [hs]; rfl
  | search hs => rw [hs]; rfl

/-- **A shape that is never null ends the chain**: a link of such a shape
is the leaf. -/
theorem Linked.eq_nil {current : Shape} {links : List Link} (h : Linked current links)
    (hc : current.isNullable = false) : links = [] := by
  cases h with
  | nil => rfl
  | cons hl _ => rw [hl.isNullable] at hc; cases hc

/-! ## Building links -/

namespace Chain

variable {policy : UnsupportedPolicy} {current : Shape}

/-- A lookup stands behind the shape that resolved its name. -/
theorem follows_of_resolve {name : String} {l : Lookup} {shape : Shape}
    (h : Lookup.resolve current name = .ok (l, shape)) :
    Link.Follows current ⟨.lookup l, shape⟩ := by
  simp only [Lookup.resolve] at h
  split at h
  · rename_i value hs
    cases h
    exact .mapKey hs
  · rename_i r hs
    split at h
    · rename_i hm
      cases h
      exact .member hs hm
    · cases h
  · rename_i hs
    cases h
    exact .dynamic hs
  · cases h

/-- A search stands behind the shape whose elements it searches. -/
theorem follows_of_element? {element : Shape} {p : Filter.Predicate}
    (h : current.element? = some element) :
    Link.Follows current ⟨.first p element.zero, element⟩ := by
  simp only [Shape.element?] at h
  split at h
  · rename_i hs
    cases h
    exact .search hs
  · cases h

/-- What an element gives behind a shape: the lookup of its restored name,
or the search of its predicate. -/
inductive StandsFor (current : Shape) : Element → Link → Prop where
  | property {name : String} {l : Lookup} {shape : Shape} :
      Lookup.resolve current (Path.restore name) = .ok (l, shape) →
      StandsFor current (.property name) ⟨.lookup l, shape⟩
  | filter {text : String} {element : Shape} {p : Filter.Predicate} :
      current.element? = some element → Filter.Predicate.compile text element = .ok p →
      StandsFor current (.filter text) ⟨.first p element.zero, element⟩

/-- **The link of an element stands for it**, whatever the policy on
elements that are not followed. -/
theorem standsFor_of_linkOf {e : Element} {l : Link}
    (h : (linkOf policy current e).outcome = .ok (some l)) : StandsFor current e l := by
  cases e with
  | property name =>
    obtain ⟨link, hlink, h⟩ := Traced.exists_of_outcome_bind h
    cases h
    obtain ⟨⟨lookup, shape⟩, hresolve, h⟩ := Traced.exists_of_outcome_bind hlink
    cases h
    exact .property hresolve
  | filter text =>
    obtain ⟨link, hlink, h⟩ := Traced.exists_of_outcome_bind h
    cases h
    simp only [filterLink] at hlink
    split at hlink
    · cases hlink
    · rename_i element he
      obtain ⟨p, hp, h⟩ := Traced.exists_of_outcome_bind hlink
      cases h
      exact .filter he hp
  | root => cases h
  | _ => cases policy <;> cases h

/-- It stands behind the shape it was built for. -/
theorem StandsFor.follows {e : Element} {l : Link} (h : StandsFor current e l) :
    l.Follows current := by
  cases h with
  | property hresolve => exact follows_of_resolve hresolve
  | filter he _ => exact follows_of_element? he

/-- The links of a path are that of its first element, if it has one, and
those of the others behind it. -/
theorem exists_of_linksOf_cons {e : Element} {es : List Element} {links : List Link}
    (h : (linksOf policy current (e :: es)).outcome = .ok links) :
    ∃ link more, (linkOf policy current e).outcome = .ok link ∧
      (linksOf policy (lastShape current link.toList) es).outcome = .ok more ∧
      links = link.toList ++ more := by
  obtain ⟨link, hlink, h⟩ := Traced.exists_of_outcome_bind h
  obtain ⟨more, hmore, h⟩ := Traced.exists_of_outcome_bind h
  exact ⟨link, more, hlink, hmore, (Except.ok.inj h).symm⟩

/-- **The links of a path stand behind each other.** -/
theorem linked_of_linksOf {es : List Element} {links : List Link}
    (h : (linksOf policy current es).outcome = .ok links) : Linked current links := by
  induction es generalizing current links with
  | nil =>
    cases h
    exact .nil
  | cons e es ih =>
    obtain ⟨link, more, hlink, hmore, rfl⟩ := exists_of_linksOf_cons h
    -- an element without a link leaves the shape to the elements behind it
    cases link with
    | none => exact ih hmore
    | some l => exact .cons (standsFor_of_linkOf hlink).follows (ih hmore)

/-- **And each of them stands for an element** of the path. -/
theorem exists_standsFor_of_mem {es : List Element} {links : List Link} {l : Link}
    (h : (linksOf policy current es).outcome = .ok links) (hl : l ∈ links) :
    ∃ e ∈ es, ∃ shape, StandsFor shape e l := by
  induction es generalizing current links with
  | nil =>
    cases h
    cases hl
  | cons e es ih =>
    obtain ⟨link, more, hlink, hmore, rfl⟩ := exists_of_linksOf_cons h
    rcases List.mem_append.1 hl with hfirst | hmem
    · obtain rfl := Option.mem_toList.1 hfirst
      exact ⟨e, List.mem_cons_self, current, standsFor_of_linkOf hlink⟩
    · obtain ⟨e', he', hstands⟩ := ih hmore hmem
      exact ⟨e', List.mem_cons_of_mem e he', hstands⟩

/-- A chain that is built has the links of its path. -/
theorem links_of_build {root : Shape} {es : List Element} {c : Chain}
    (h : (build policy root es).outcome = .ok c) :
    c.root = root ∧ (linksOf policy root es).outcome = .ok c.links := by
  obtain ⟨links, hlinks, h⟩ := Traced.exists_of_outcome_bind h
  cases h
  exact ⟨rfl, hlinks⟩

/-- And so do those of a chain that was built. -/
theorem linked_of_build {root : Shape} {es : List Element} {c : Chain}
    (h : (build policy root es).outcome = .ok c) : c.root = root ∧ Linked root c.links := by
  obtain ⟨rfl, hlinks⟩ := links_of_build h
  exact ⟨rfl, linked_of_linksOf hlinks⟩

end Chain

end PathAccess
