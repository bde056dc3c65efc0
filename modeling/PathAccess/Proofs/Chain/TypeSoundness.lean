import PathAccess.Proofs.Chain.NullSafety
import PathAccess.Proofs.Compilation
import PathAccess.Proofs.Shape.Part
/-!
# Type soundness — plans read what their shapes promise

A root that fits its shape is read without a value of the wrong kind,
and what is read fits the shape that compiling announced. The one
failure left to a plain plan is a null reference; a guarded plan has
none.

Progress and preservation are one statement about one link
(`Link.Follows.sound`): behind a value other than null that fits, its
step applies, and what it reads fits. A shape of unknown members promises
nothing of the values behind it, so no link may stand behind one.
-/

namespace PathAccess

open Shape

variable {current : Shape} {document v d : Json}

/-! ## One link -/

/-- The shape of a link is a part of the shape that it stands behind. -/
theorem Link.Follows.part {l : Link} (h : l.Follows current) : Part l.shape current := by
  refine Part.trans ?_ (Part.nonNull current)
  cases h with
  | mapKey hs =>
    rw [hs]
    exact .value (.refl _)
  | member hs hm =>
    rw [hs]
    obtain ⟨m, hmem, rfl⟩ := Option.map_eq_some_iff.1 hm
    exact .member (List.mem_of_find?_eq_some hmem) (.refl _)
  | dynamic hs =>
    rw [hs]
    exact .refl _
  | search hs =>
    rw [hs]
    exact .element (.refl _)

/-- What a key of a map reads fits the shape of its values. -/
theorem fits_readEntry_mapKey {key : String} {value : Shape} {entries : List (String × Json)}
    (h : ∀ e ∈ entries, value.Fits .lenient e.2) :
    value.Fits .lenient (Step.readEntry (.mapKey key value.zero) entries).value := by
  simp only [Step.readEntry, Lookup.key, Lookup.miss]
  cases he : Json.entryValue? key entries with
  | none => exact fits_zero value
  | some v =>
    obtain ⟨e, hmem, rfl⟩ := Option.map_eq_some_iff.1 he
    exact h e (List.mem_of_find?_eq_some hmem)

/-- What a member of a record reads fits the shape of the member, which
an absent entry fits as null. -/
theorem fits_readEntry_member {r : Record Shape} {name : String} {m : Shape}
    {entries : List (String × Json)} (hm : r.member? name = some m)
    (h : RecordFits .lenient r entries) :
    m.Fits .lenient (Step.readEntry (.member name) entries).value := by
  obtain ⟨⟨n, _⟩, hmem, rfl⟩ := Option.map_eq_some_iff.1 hm
  obtain rfl : n = name := by simpa using List.find?_some hmem
  have hfit := (recordFits_iff _ r entries).1 h _ (List.mem_of_find?_eq_some hmem)
  simp only [Step.readEntry, Lookup.key, Lookup.miss]
  cases he : Json.entryValue? n entries <;> rw [he] at hfit <;> exact hfit

/-- What a search reads fits the shape of the elements. -/
theorem fits_readFirst {p : Filter.Predicate} {element : Shape} {items : List Json}
    (h : ∀ i ∈ items, element.Fits .lenient i) :
    element.Fits .lenient (Step.readFirst p element.zero items).value := by
  simp only [Step.readFirst]
  cases hf : items.find? p.holds with
  | none => exact fits_zero element
  | some i => exact h i (List.mem_of_find?_eq_some hf)

/-- **A link behind a value that fits applies, and reads a value that
fits.** -/
theorem Link.Follows.sound {l : Link} (h : l.Follows current) (hany : current.nonNull ≠ .any)
    (hfit : current.Fits .lenient v) (hne : v ≠ .null) :
    ∃ r, l.step.apply v = .ok r ∧ l.shape.Fits .lenient r.value := by
  have hfit := fits_nonNull hfit hne
  cases h with
  | mapKey hs =>
    rw [hs] at hfit
    obtain ⟨entries, rfl, hentries⟩ := hfit.resolve_left fun h => hne h.2
    exact ⟨_, rfl, fits_readEntry_mapKey hentries⟩
  | member hs hm =>
    rw [hs] at hfit
    obtain ⟨entries, rfl, hentries⟩ := hfit.resolve_left fun h => hne h.2
    exact ⟨_, rfl, fits_readEntry_member hm hentries⟩
  | dynamic hs => exact absurd hs hany
  | search hs =>
    rw [hs] at hfit
    obtain ⟨items, rfl, hitems⟩ := hfit.resolve_left fun h => hne h.2
    exact ⟨_, rfl, fits_readFirst hitems⟩

/-! ## Links behind each other -/

/-- An outcome that keeps the promise of a shape: a value that fits, or
a null reference. -/
def Delivers (s : Shape) : Except AccessError Reading → Prop
  | .ok r => s.Fits .lenient r.value
  | .error e => ∃ p, e = .nullReference p

/-- Links that stand behind shapes of known members only. -/
def KnownBases : Shape → List Link → Prop
  | _, [] => True
  | current, l :: links => current.nonNull ≠ .any ∧ KnownBases l.shape links

/-- The bases are the root and every link before the leaf. -/
theorem knownBases_of_dropLast {links : List Link} (hroot : current.nonNull ≠ .any)
    (h : ∀ l ∈ links.dropLast, l.shape.nonNull ≠ .any) : KnownBases current links := by
  induction links generalizing current with
  | nil => trivial
  | cons l links ih =>
    refine ⟨hroot, ?_⟩
    cases links with
    | nil => trivial
    | cons next links =>
      rw [List.dropLast_cons_cons] at h
      exact ih (h l List.mem_cons_self) fun x hx => h x (List.mem_cons_of_mem _ hx)

/-- **One access delivers.** -/
theorem delivers_access {base : Plan} {l : Link} (h : l.Follows current)
    (hany : current.nonNull ≠ .any) (hbase : Delivers current (base.evaluate document)) :
    Delivers l.shape ((base.access l.step).evaluate document) := by
  cases hb : base.evaluate document with
  | error e =>
    rw [hb] at hbase
    rw [Plan.evaluate_access_of_error hb]
    exact hbase
  | ok r =>
    rw [hb] at hbase
    rw [Plan.evaluate_access_of_ok hb]
    by_cases hr : r.value = .null
    · rw [Plan.applyStep_of_null hr]
      exact ⟨_, rfl⟩
    · obtain ⟨r', happly, hfit⟩ := h.sound hany hbase hr
      simp only [Plan.applyStep, happly, Delivers]
      cases r.origin <;> exact hfit

/-- **And so do accesses in a row**, by induction on the links. -/
theorem delivers_accessAll {base : Plan} {links : List Link} (hlinks : Linked current links)
    (hknown : KnownBases current links) (hbase : Delivers current (base.evaluate document)) :
    Delivers (lastShape current links)
      ((base.accessAll (links.map Link.step)).evaluate document) := by
  induction hlinks generalizing base with
  | nil => exact hbase
  | cons hl _ ih => exact ih hknown.2 (delivers_access hl hknown.1 hbase)

/-- The last shape of links is a part of the first. -/
theorem Linked.part_lastShape {links : List Link} (h : Linked current links) :
    Part (lastShape current links) current := by
  induction h with
  | nil => exact .refl _
  | cons hl _ ih => exact ih.trans hl.part

/-! ## Chains -/

namespace Chain

variable {c : Chain}

/-- **The plain chain delivers** on every root that fits. -/
theorem delivers_plan (hlinks : Linked c.root c.links) (hknown : KnownBases c.root c.links)
    (hfit : c.root.Fits .lenient document) :
    Delivers c.finalShape (c.plan.evaluate document) :=
  delivers_accessAll hlinks hknown hfit

/-- A single link dereferences nothing but the root, so a short chain
does not fail on a root that is not null. -/
theorem exists_evaluate_of_short (hlen : c.links.length ≤ 1) (hlinks : Linked c.root c.links)
    (hknown : KnownBases c.root c.links) (hfit : c.root.Fits .lenient document)
    (hne : document ≠ .null) :
    ∃ r, c.plan.evaluate document = .ok r ∧ c.finalShape.Fits .lenient r.value := by
  obtain ⟨root, links⟩ := c
  match links, hlinks with
  | [], _ => exact ⟨_, rfl, hfit⟩
  | [l], .cons hl _ =>
    obtain ⟨r, happly, hr⟩ := hl.sound hknown.1 hfit hne
    refine ⟨r, ?_, hr⟩
    show Plan.applyStep _ l.step (.found document) = .ok r
    simp only [Plan.applyStep, Reading.found, happly, Reading.outOf]
  | _ :: _ :: _, _ => simp at hlen

/-- **Guards leave no failure**: what they put in fits, and is null only
if the fallback is. -/
theorem exists_underGuards {s : Shape} {o : Except AccessError Reading} (hd : s.Fits .lenient d)
    (h : Delivers s o) :
    ∃ r, underGuards d s.isNullable o = .ok r ∧ s.Fits .lenient r.value ∧
      (d ≠ .null → r.value ≠ .null) := by
  cases o with
  | error e =>
    obtain ⟨p, rfl⟩ := h
    exact ⟨.constant d, rfl, hd, id⟩
  | ok r =>
    by_cases hr : r.value = .null
    · rw [underGuards_of_null hr]
      cases hs : s.isNullable with
      | true => exact ⟨.constant d, rfl, hd, id⟩
      | false =>
        change s.Fits .lenient r.value at h
        rw [hr] at h
        exact absurd h (not_fits_null hs)
    · exact ⟨r, underGuards_of_ne_null hr, h, fun _ => hr⟩

/-- **The guarded chain never fails** on a root that fits and is not
null, and what it reads fits. -/
theorem exists_evaluate_of_guarded {g : Plan} (h : c.guarded.outcome = .ok g)
    (hlinks : Linked c.root c.links) (hknown : KnownBases c.root c.links)
    (hfallbacks : c.root.FallbacksFit) (hfit : c.root.Fits .lenient document)
    (hne : document ≠ .null) :
    ∃ r, g.evaluate document = .ok r ∧ c.finalShape.Fits .lenient r.value ∧
      (2 ≤ c.links.length → c.root.NoNullFallback → r.value ≠ .null) := by
  by_cases hlen : c.links.length ≤ 1
  · obtain ⟨r, hr, hrfit⟩ := exists_evaluate_of_short hlen hlinks hknown hfit hne
    rw [guarded, if_pos hlen, Traced.outcome_pure] at h
    cases h
    exact ⟨r, hr, hrfit, fun hlong => by omega⟩
  · obtain ⟨d, hd, rfl⟩ := fallback_of_guarded (by omega) h
    have hpart : Part c.finalShape c.root := hlinks.part_lastShape
    obtain ⟨r, hr, hrfit, hrne⟩ := exists_underGuards
      (fits_fallback (hfallbacks.of_part hpart) hd) (delivers_plan hlinks hknown hfit)
    refine ⟨r, ?_, hrfit, fun _ hnull => hrne (fallback_ne_null (hnull.of_part hpart) hd)⟩
    rw [evaluate_guarded hlinks hne, hr]

end Chain

/-! ## Compiled paths -/

/-- **Compiled plans are type sound.** On a root that fits its shape and
is not null, behind links of known members: the plain plan fails with
null references only, and the null-safe plan, where it compiles, does
not fail at all; what either reads fits the announced shape, and what a
null-safe plan of two links or more reads is null only if a declared
fallback is. -/
theorem compiled_plans_sound {policy : UnsupportedPolicy} {root : Shape} {path : String}
    {c : Chain} (hchain : (Chain.ofPath policy root path).outcome = .ok c)
    (hroot : root.nonNull ≠ .any) (hbases : ∀ l ∈ c.links.dropLast, l.shape.nonNull ≠ .any)
    (hfallbacks : root.FallbacksFit) (hfit : root.Fits .lenient document)
    (hne : document ≠ .null) :
    (∃ a, (Accessor.compile ⟨false, policy⟩ root path).outcome = .ok a ∧
      (∀ v, a.value document = .ok v → a.resultShape.Fits .lenient v) ∧
      ∀ e, a.value document = .error e → ∃ p, e = .nullReference p) ∧
    ∀ a, (Accessor.compile ⟨true, policy⟩ root path).outcome = .ok a →
      ∃ v, a.value document = .ok v ∧ a.resultShape.Fits .lenient v ∧
        (2 ≤ c.links.length → root.NoNullFallback → v ≠ .null) := by
  obtain ⟨rfl, hlinks⟩ := Chain.linked_of_ofPath hchain
  have hknown := knownBases_of_dropLast hroot hbases
  constructor
  · refine ⟨_, Accessor.outcome_compile_plain hchain, ?_⟩
    have hplan := Chain.delivers_plan hlinks hknown hfit
    simp only [Accessor.value, Plan.value]
    cases hr : c.plan.evaluate document with
    | ok r =>
      rw [hr] at hplan
      refine ⟨fun v hv => ?_, nofun⟩
      cases hv
      exact hplan
    | error e =>
      rw [hr] at hplan
      refine ⟨nofun, fun e he => ?_⟩
      cases he
      exact hplan
  · intro a ha
    obtain ⟨hg, hshape⟩ := Accessor.guarded_of_compile hchain ha
    obtain ⟨r, hr, hrfit, hrne⟩ :=
      Chain.exists_evaluate_of_guarded hg hlinks hknown hfallbacks hfit hne
    refine ⟨r.value, ?_, hshape ▸ hrfit, hrne⟩
    simp only [Accessor.value, Plan.value, hr, Except.map]

/-! ## A search that finds nothing -/

namespace Chain

/-- The chain of `.items[?(@.Type=='3')]`. -/
def itemChain : Chain :=
  ⟨stockShape,
    [⟨.lookup (.member "items"), .list itemShape⟩,
     ⟨.first ⟨[.member "Type"], .equal, .string "3"⟩ .null, itemShape⟩]⟩

/-- The one record with a fallback inside the stock is the item. -/
theorem fallback_of_part_stockShape {r : Record Shape} (hpart : Part (.record r) stockShape)
    (hd : r.fallback = some d) : itemShape = .record r ∧ d = noItem := by
  cases hpart with
  | refl => cases hd
  | member hmem hpart =>
    simp only [List.mem_singleton, Prod.mk.injEq] at hmem
    obtain ⟨-, rfl⟩ := hmem
    cases hpart with
    | element hpart =>
      cases hpart with
      | refl => exact ⟨rfl, (Option.some.inj hd).symm⟩
      | member hmem hpart =>
        simp only [List.mem_cons, Prod.mk.injEq, List.not_mem_nil, or_false] at hmem
        rcases hmem with ⟨-, rfl⟩ | ⟨-, rfl⟩
        · cases hpart with
          | inner hpart => cases hpart
        · cases hpart

theorem fits_noItem : itemShape.Fits .lenient noItem := by
  simp [itemShape, noItem, Fits, RecordFits, MembersFit, Json.entryValue?_cons]

theorem fits_otherStock : stockShape.Fits .lenient otherStock := by
  simp [stockShape, itemShape, otherStock, Fits, RecordFits, MembersFit, Json.entryValue?_cons]

theorem otherStock_ne_null : otherStock ≠ .null := nofun

theorem nonNull_stockShape_ne_any : stockShape.nonNull ≠ .any := nofun

theorem knownBases_itemChain : ∀ l ∈ itemChain.links.dropLast, l.shape.nonNull ≠ .any := by
  intro l hl
  rw [List.mem_singleton.1 hl]
  exact nofun

end Chain

/-- The search finds no item, the plain plan reads its null, and the
null-safe plan reads a value that fits and is not null. -/
theorem compiled_plans_sound_otherStock :
    (Chain.ofPath .reject Chain.stockShape ".items[?(@.Type=='3')]").outcome =
        .ok Chain.itemChain ∧
      Chain.stockShape.FallbacksFit ∧ Chain.stockShape.NoNullFallback ∧
      Chain.stockShape.Fits .lenient Chain.otherStock ∧ Chain.otherStock ≠ .null ∧
      ∃ a, (Accessor.compile ⟨true, .reject⟩ Chain.stockShape ".items[?(@.Type=='3')]").outcome =
          .ok a ∧
        ∃ v, a.value Chain.otherStock = .ok v ∧ a.resultShape.Fits .lenient v ∧ v ≠ .null := by
  have hread : Path.read ".items[?(@.Type=='3')]" =
      .ok [.root, .property "items", .filter "@.Type=='3'"] :=
    Path.read_eq_ok_iff.2 (by decide +kernel)
  have hchain : (Chain.ofPath .reject Chain.stockShape ".items[?(@.Type=='3')]").outcome =
      .ok Chain.itemChain := by
    rw [Chain.ofPath_eq_build (by cbv) hread]
    rfl
  have hfallbacks : Chain.stockShape.FallbacksFit := by
    intro r d hpart hd
    obtain ⟨hr, rfl⟩ := Chain.fallback_of_part_stockShape hpart hd
    exact hr ▸ Chain.fits_noItem
  have hnull : Chain.stockShape.NoNullFallback := by
    intro r hpart hd
    cases (Chain.fallback_of_part_stockShape hpart hd).2
  obtain ⟨-, hsafe⟩ :=
    compiled_plans_sound hchain Chain.nonNull_stockShape_ne_any Chain.knownBases_itemChain
      hfallbacks Chain.fits_otherStock Chain.otherStock_ne_null
  have hguarded : Chain.itemChain.guarded.outcome = .ok _ :=
    Chain.outcome_guarded (d := Chain.noItem) (by decide) rfl
  have hcompile : (Accessor.compile ⟨true, .reject⟩ Chain.stockShape
      ".items[?(@.Type=='3')]").outcome = .ok _ := Accessor.outcome_compile hchain hguarded
  obtain ⟨v, hv, hvfit, hvne⟩ := hsafe _ hcompile
  exact ⟨hchain, hfallbacks, hnull, Chain.fits_otherStock, Chain.otherStock_ne_null, _, hcompile,
    v, hv, hvfit, hvne (by decide) hnull⟩

end PathAccess
