import PathAccess.Proofs.Chain.Resolution
/-!
# Typed and dynamic reading agree

A name is read as a member of a record, as a key of a map, or, behind
`any`, as a member that is found when it is read. The shape decides
which, and on roots of every kind the choice cannot be seen, but for
what is read where the entry is missing: a key of a map yields the zero
of the map's values, and a member null. A zero other than null is of a
shape that is never null, and nothing stands behind one. So the readings
part at the last link only, where a map of such values lacks its key.
-/

namespace PathAccess

/-! ## One lookup -/

namespace Plan

variable {l l' : Lookup} {j : Json} {document : Json}

/-- What a lookup gives on an object. -/
theorem result_lookup_object (l : Lookup) (entries : List (String × Json)) :
    (root.access (.lookup l)).result (.object entries) =
      .ok ((Json.entryValue? l.key entries).getD l.miss) := by
  simp only [result, value, evaluate, applyStep, Reading.found, Step.apply, Step.readEntry]
  cases Json.entryValue? l.key entries <;> rfl

/-- Where the entry is missing, it is what the lookup has for it. -/
theorem result_lookup_of_missing {entries : List (String × Json)}
    (h : Json.entryValue? l.key entries = none) :
    (root.access (.lookup l)).result (.object entries) = .ok l.miss := by
  rw [result_lookup_object, h, Option.getD_none]

/-- **Two lookups of one key part only over a missing entry.** -/
theorem result_lookup_congr (hkey : l.key = l'.key)
    (hmiss : ∀ entries, j = .object entries → Json.entryValue? l.key entries = none →
      l.miss = l'.miss) :
    (root.access (.lookup l)).result j = (root.access (.lookup l')).result j := by
  cases j with
  | object entries =>
    rw [result_lookup_object, result_lookup_object, ← hkey]
    cases hentry : Json.entryValue? l.key entries with
    | some v => rfl
    | none => rw [hmiss entries rfl hentry]
  | _ => rfl

/-- A lookup fails on null, or on a value that is no object. -/
theorem kind_of_result_lookup {k : AccessError.Kind}
    (h : (root.access (.lookup l)).result j = .error k) :
    k = .nullReference ∨ k = .unexpectedValue .object := by
  cases j with
  | null => exact .inl (Except.error.inj h).symm
  | object entries =>
    rw [result_lookup_object] at h
    cases h
  | _ => exact .inr (Except.error.inj h).symm

end Plan

/-! ## Names behind `any` -/

/-- The links of names behind `any`. -/
def dynamicLinks (names : List String) : List Link :=
  names.map fun name => ⟨.lookup (.member name), .any⟩

/-- **Every name can be resolved behind `any`.** -/
theorem resolves_any (names : List String) : Resolves .any names (dynamicLinks names) := by
  induction names with
  | nil => exact .nil
  | cons name names ih => exact .cons rfl ih

namespace Resolves

variable {current shape : Shape} {name : String} {names : List String} {links : List Link}
variable {document : Json}

/-- Where every shape may be null, a missing entry reads as null, and so
**the readings agree**; by induction on the names. -/
theorem result_eq_dynamic (h : Resolves current names links)
    (hnullable : ∀ l ∈ links, l.shape.isNullable = true) :
    (Plan.root.accessAll (links.map Link.step)).result =
      (Plan.root.accessAll ((dynamicLinks names).map Link.step)).result := by
  induction h with
  | nil => rfl
  | @cons current shape name names l links hl hlinks ih =>
    obtain ⟨hshape, hnullable⟩ := List.forall_mem_cons.1 hnullable
    have hmiss : l.miss = (Lookup.member name).miss := by
      rcases Lookup.miss_of_resolve hl with ⟨-, hmiss⟩ | ⟨-, hmiss⟩
      · rw [hmiss, Shape.zero_of_isNullable hshape]
        rfl
      · exact hmiss
    funext document
    calc (Plan.root.accessAll (Step.lookup l :: links.map Link.step)).result document
      _ = (Plan.root.access (.lookup l)).result document >>=
            (Plan.root.accessAll (links.map Link.step)).result :=
          Plan.result_accessAll_cons ..
      _ = (Plan.root.access (.lookup (.member name))).result document >>=
            (Plan.root.accessAll ((dynamicLinks names).map Link.step)).result := by
          rw [Plan.result_lookup_congr (Lookup.key_of_resolve hl) fun _ _ _ => hmiss, ih hnullable]
      _ = (Plan.root.accessAll ((dynamicLinks (name :: names)).map Link.step)).result document :=
          (Plan.result_accessAll_cons ..).symm

/-- The links of lookups fail on null, or on a value that is no object. -/
theorem kind_of_result (h : Resolves current names links) {k : AccessError.Kind}
    (hresult : (Plan.root.accessAll (links.map Link.step)).result document = .error k) :
    k = .nullReference ∨ k = .unexpectedValue .object := by
  induction h generalizing document with
  | nil => cases hresult
  | @cons _ _ _ _ l links _ _ ih =>
    rw [List.map_cons, Plan.result_accessAll_cons] at hresult
    cases hstep : (Plan.root.access (.lookup l)).result document with
    | error k' =>
      rw [hstep] at hresult
      cases hresult
      exact Plan.kind_of_result_lookup hstep
    | ok v =>
      rw [hstep] at hresult
      exact ih hresult

/-- **The last of some names is resolved behind the others**, the shapes
of which may all be null. -/
theorem exists_concat (h : Resolves current (names ++ [name]) links) :
    ∃ front l shape, links = front ++ [⟨.lookup l, shape⟩] ∧ Resolves current names front ∧
      Lookup.resolve (lastShape current front) name = .ok (l, shape) := by
  induction names generalizing current links with
  | nil =>
    cases h with
    | cons hl hnil =>
      cases hnil
      exact ⟨[], _, _, rfl, .nil, hl⟩
  | cons first names ih =>
    cases h with
    | cons hl hmore =>
      obtain ⟨front, l, shape, rfl, hfront, hlast⟩ := ih hmore
      exact ⟨_ :: front, l, shape, rfl, .cons hl hfront, hlast⟩

end Resolves

/-- **Every shape but the last may be null.** -/
theorem Linked.isNullable_of_mem_front {current : Shape} {front : List Link} {l : Link}
    (h : Linked current (front ++ [l])) : ∀ x ∈ front, x.shape.isNullable = true := by
  induction front generalizing current with
  | nil => exact fun x hx => absurd hx List.not_mem_nil
  | cons first front ih =>
    obtain ⟨-, hmore⟩ := Linked.cons_iff.1 h
    refine List.forall_mem_cons.2 ⟨?_, ih hmore⟩
    cases hfirst : first.shape.isNullable with
    | true => rfl
    | false => exact absurd (hmore.eq_nil hfirst) (by simp)

/-! ## The one difference -/

namespace Chain

/-- **A chain misses its last key** where its last link looks up a key
that is absent from the map it is read from, and the values of the map
are booleans or numbers. -/
def MissesLastKey (c : Chain) (document : Json) : Prop :=
  ∃ front key miss value entries, c.links = front ++ [⟨.lookup (.mapKey key miss), value⟩] ∧
    value.isValueKind = true ∧ (Chain.mk c.root front).plan.value document = .ok (.object entries) ∧
    Json.entryValue? key entries = none

section

variable {root shape : Shape} {front : List Link} {l : Lookup} {name : String} {document : Json}

theorem missesLastKey_concat_iff :
    MissesLastKey ⟨root, front ++ [⟨.lookup l, shape⟩]⟩ document ↔
      (∃ key miss, l = .mapKey key miss) ∧ shape.isValueKind = true ∧
        ∃ entries, (Chain.mk root front).plan.value document = .ok (.object entries) ∧
          Json.entryValue? l.key entries = none := by
  constructor
  · rintro ⟨front', key, miss, value, entries, hlinks, hkind, hread, hentry⟩
    obtain ⟨rfl, hlast⟩ := List.append_inj' hlinks rfl
    cases hlast
    exact ⟨⟨key, miss, rfl⟩, hkind, entries, hread, hentry⟩
  · rintro ⟨⟨key, miss, rfl⟩, hkind, entries, hread, hentry⟩
    exact ⟨front, key, miss, shape, entries, rfl, hkind, hread, hentry⟩

/-- The plan of a last lookup gives what the lookup gives on what the
links in front of it read. -/
theorem result_plan_concat (root : Shape) (front : List Link) (l : Lookup) (shape : Shape) :
    (Chain.mk root (front ++ [⟨.lookup l, shape⟩])).plan.result document =
      (Chain.mk root front).plan.result document >>= (Plan.root.access (.lookup l)).result := by
  rw [plan, List.map_append, Plan.result_accessAll_append]
  rfl

/-- **Where no key is missed, the last lookup reads what a member
reads.** -/
theorem result_concat_of_not_missesLastKey
    (hl : Lookup.resolve (lastShape root front) name = .ok (l, shape))
    (h : ¬ MissesLastKey ⟨root, front ++ [⟨.lookup l, shape⟩]⟩ document) :
    (Chain.mk root front).plan.result document >>= (Plan.root.access (.lookup l)).result =
      (Chain.mk root front).plan.result document >>=
        (Plan.root.access (.lookup (.member name))).result := by
  cases hfront : (Chain.mk root front).plan.result document with
  | error k => rfl
  | ok v =>
    refine Plan.result_lookup_congr (Lookup.key_of_resolve hl) fun entries hv hentry => ?_
    subst hv
    rcases Lookup.miss_of_resolve hl with ⟨hmap, hmiss⟩ | ⟨-, hmiss⟩
    · have hkey : l = .mapKey name shape.zero := by
        simp only [Lookup.resolve, hmap, Except.ok.injEq, Prod.mk.injEq] at hl
        exact hl.1.symm
      have hkind : ¬ shape.isValueKind = true := fun hkind =>
        h (missesLastKey_concat_iff.2
          ⟨⟨_, _, hkey⟩, hkind, entries, Plan.result_eq_ok_iff.1 hfront, hentry⟩)
      rw [hmiss, Shape.zero_of_isNullable (by simpa [Shape.isNullable] using hkind)]
      rfl
    · exact hmiss

/-- **Where it is missed, the lookup reads the zero** of the values, and
a member null. -/
theorem result_concat_of_missesLastKey
    (hl : Lookup.resolve (lastShape root front) name = .ok (l, shape))
    (h : MissesLastKey ⟨root, front ++ [⟨.lookup l, shape⟩]⟩ document) :
    (Chain.mk root front).plan.result document >>= (Plan.root.access (.lookup l)).result =
        .ok shape.zero ∧
      (Chain.mk root front).plan.result document >>=
        (Plan.root.access (.lookup (.member name))).result = .ok .null := by
  obtain ⟨⟨key, miss, rfl⟩, -, entries, hread, hentry⟩ := missesLastKey_concat_iff.1 h
  have hmiss : miss = shape.zero := by
    have hfollows := follows_of_resolve hl
    cases hfollows
    rfl
  have hname : key = name := Lookup.key_of_resolve hl
  subst hmiss hname
  rw [Plan.result_eq_ok_iff.2 hread]
  exact ⟨Plan.result_lookup_of_missing hentry, Plan.result_lookup_of_missing hentry⟩

end

/-- **Links of names and members of those names agree but for a missed
key**: only the last of the shapes is never null. -/
theorem agrees_dynamic {root : Shape} {names : List String} {links : List Link}
    (h : Resolves root names links) (document : Json) :
    (¬ MissesLastKey ⟨root, links⟩ document →
      (Chain.mk root links).plan.result document =
        (Chain.mk .any (dynamicLinks names)).plan.result document) ∧
    (MissesLastKey ⟨root, links⟩ document →
      (Chain.mk root links).plan.result document = .ok (lastShape root links).zero ∧
        (Chain.mk .any (dynamicLinks names)).plan.result document = .ok .null) := by
  rcases names.eq_nil_or_concat with rfl | ⟨init, name, hnames⟩
  · cases h
    refine ⟨fun _ => rfl, ?_⟩
    rintro ⟨front, key, miss, value, entries, hlinks, -⟩
    exact absurd hlinks.symm (by simp)
  · rw [List.concat_eq_append] at hnames
    subst hnames
    obtain ⟨front, l, shape, rfl, hfront, hl⟩ := h.exists_concat
    have hagree : (Chain.mk root front).plan.result =
        (Chain.mk .any (dynamicLinks init)).plan.result :=
      hfront.result_eq_dynamic h.linked.isNullable_of_mem_front
    have hdynamic : dynamicLinks (init ++ [name]) =
        dynamicLinks init ++ [⟨.lookup (.member name), .any⟩] := List.map_append
    rw [hdynamic, result_plan_concat, result_plan_concat, ← hagree, lastShape_append]
    exact ⟨result_concat_of_not_missesLastKey hl, result_concat_of_missesLastKey hl⟩

/-- **Typed and dynamic reading agree.** Properties that build behind a
shape build behind `any`, and on every root, whether it fits the shape or
not, the two plans give the same value or the same kind of error. The one
exception is a chain that misses its last key: the typed plan gives the
zero of the shape it reads there, and the dynamic one null. -/
theorem typed_agrees_dynamic {policy : UnsupportedPolicy} {root : Shape} {names : List String}
    {c : Chain} (h : (build policy root (names.map .property)).outcome = .ok c) :
    ∃ d, (build policy .any (names.map .property)).outcome = .ok d ∧ ∀ document,
      (¬ c.MissesLastKey document → c.plan.result document = d.plan.result document) ∧
      (c.MissesLastKey document →
        c.plan.value document = .ok c.finalShape.zero ∧ d.plan.value document = .ok .null) ∧
      ∀ k, c.plan.result document = .error k →
        k = .nullReference ∨ k = .unexpectedValue .object := by
  obtain ⟨links, hlinks, hc⟩ := Traced.exists_of_outcome_bind h
  cases hc
  have hresolves := resolves_of_linksOf_properties hlinks
  have hany : (linksOf policy .any (names.map .property)).outcome =
      .ok (dynamicLinks (names.map Path.restore)) := outcome_linksOf_properties (resolves_any _)
  refine ⟨⟨.any, dynamicLinks (names.map Path.restore)⟩, by simp [build, hany], fun document => ?_⟩
  obtain ⟨hthere, hmissing⟩ := agrees_dynamic hresolves document
  refine ⟨hthere, fun hmisses => ?_, fun k hk => hresolves.kind_of_result hk⟩
  obtain ⟨hzero, hnull⟩ := hmissing hmisses
  exact ⟨Plan.result_eq_ok_iff.1 hzero, Plan.result_eq_ok_iff.1 hnull⟩

/-! ## Pears that are not counted -/

/-- An orchard with a count for each kind of its trees. -/
def orchardShape : Shape :=
  .record { name := "Orchard", members := [("trees", .map .integer)] }

/-- The chain of `.trees.pears`. -/
def pearsChain : Chain :=
  ⟨orchardShape,
    [⟨.lookup (.member "trees"), .map .integer⟩, ⟨.lookup (.mapKey "pears" .zero), .integer⟩]⟩

/-- An orchard with no count. -/
def emptyOrchard : Json := .object [("trees", .object [])]

/-- An orchard with a text in place of the counts. -/
def oddOrchard : Json := .object [("trees", .string "none")]

/-- The text is no map in either reading. Where there are counts but none
of pears, the one reading gives zero and the other null. -/
theorem typed_agrees_dynamic_pears :
    (build .reject orchardShape (["trees", "pears"].map .property)).outcome = .ok pearsChain ∧
      ¬ pearsChain.MissesLastKey oddOrchard ∧ pearsChain.MissesLastKey emptyOrchard ∧
      ∃ d, (build .reject .any (["trees", "pears"].map .property)).outcome = .ok d ∧
        d.plan.result oddOrchard = .error (.unexpectedValue .object) ∧
        pearsChain.plan.value emptyOrchard = .ok .zero ∧ d.plan.value emptyOrchard = .ok .null := by
  have hbuild : (build .reject orchardShape (["trees", "pears"].map .property)).outcome =
      .ok pearsChain := rfl
  have hodd : ¬ pearsChain.MissesLastKey oddOrchard := by
    intro h
    have hconcat : MissesLastKey ⟨orchardShape, [⟨.lookup (.member "trees"), .map .integer⟩] ++
        [⟨.lookup (.mapKey "pears" .zero), .integer⟩]⟩ oddOrchard := h
    obtain ⟨-, -, entries, hread, -⟩ := missesLastKey_concat_iff.1 hconcat
    cases hread
  have hempty : pearsChain.MissesLastKey emptyOrchard :=
    ⟨[⟨.lookup (.member "trees"), .map .integer⟩], "pears", .zero, .integer, [], rfl, rfl, rfl, rfl⟩
  obtain ⟨d, hd, hagree⟩ := typed_agrees_dynamic hbuild
  obtain ⟨hzero, hnull⟩ := (hagree emptyOrchard).2.1 hempty
  exact ⟨hbuild, hodd, hempty, d, hd, ((hagree oddOrchard).1 hodd).symm, hzero, hnull⟩

end Chain

end PathAccess
