import PathAccess.Proofs.Chain.Composition
import PathAccess.Proofs.Chain.NullSafety
/-!
# Elements that are not followed

A path may hold elements of kinds that give no links and are not the
root. Under the one policy they are skipped, and the chain is that of
the path without them, errors included; each that is met leaves a
warning. Under the other the first of them is refused, unless the path
in front of it fails already. The two policies treat an element that is
followed alike, and only the shape that the links have reached passes on
from one element to the next, so an element without a link is as good
as absent.
-/

namespace PathAccess

/-- Whether elements of this kind give links. -/
def Element.hasLink : Element → Bool
  | property _ | filter _ => true
  | _ => false

namespace Traced

variable {α β : Type}

/-- The warnings among the events. -/
def warnings (x : Traced α) : List Event :=
  x.events.filter fun event => event.level == "WARN"

/-- The warnings of a sequence are those of its parts, up to the first
failure. -/
theorem warnings_bind (x : Traced α) (f : α → Traced β) :
    (x >>= f).warnings = x.warnings ++ match x.outcome with
      | .ok a => (f a).warnings
      | .error _ => [] := by
  simp only [warnings, events_bind, List.filter_append]
  cases x.outcome <;> rfl

end Traced

namespace Chain

variable {policy : UnsupportedPolicy} {current root : Shape} {e u : Element}
variable {es pre post : List Element} {links : List Link} {c : Chain} {why : CompileError}

/-! ## One element -/

/-- **The policies part only at elements that are not followed.** -/
theorem linkOf_skip_eq_reject (h : e.isSupported = true) :
    linkOf .skip current e = linkOf .reject current e := by
  cases e with
  | root | property | filter => rfl
  | _ => cases h

/-- An element that is not followed is skipped with a warning. -/
theorem linkOf_skip_of_unsupported (h : u.isSupported = false) :
    linkOf .skip current u = ⟨[.skipped u], .ok none⟩ := by
  cases u with
  | root | property | filter => cases h
  | _ => rfl

/-- Or it is refused. -/
theorem linkOf_reject_of_unsupported (h : u.isSupported = false) :
    linkOf .reject current u = .fail (.unsupportedElement u) := by
  cases u with
  | root | property | filter => cases h
  | _ => rfl

/-- An element that is followed leaves no warning, whether it gives a
link or fails. -/
theorem warnings_linkOf (h : e.isSupported = true) :
    (linkOf policy current e).warnings = [] := by
  cases e with
  | root => rfl
  | property name =>
    simp only [linkOf, propertyLink, Traced.warnings_bind]
    cases Lookup.resolve current (Path.restore name) <;> rfl
  | filter text =>
    simp only [linkOf, filterLink]
    cases current.element? with
    | none => rfl
    | some element =>
      simp only [Traced.warnings_bind]
      cases Filter.Predicate.compile text element <;> rfl
  | _ => cases h

/-- Where the path is not refused, there is a link if the kind has one. -/
theorem length_of_linkOf_reject {link : Option Link}
    (h : (linkOf .reject current e).outcome = .ok link) :
    link.toList.length = if e.hasLink then 1 else 0 := by
  cases e with
  | property name =>
    obtain ⟨l, -, h⟩ := Traced.exists_of_outcome_bind h
    cases h
    rfl
  | filter text =>
    obtain ⟨l, -, h⟩ := Traced.exists_of_outcome_bind h
    cases h
    rfl
  | root => cases h; rfl
  | _ => cases h

/-! ## Skipping -/

/-- **Skipping gives the links of the path without the elements that are
not followed**, or its error; by induction on the path. -/
theorem outcome_linksOf_skip (current : Shape) (es : List Element) :
    (linksOf .skip current es).outcome =
      (linksOf .reject current (es.filter Element.isSupported)).outcome := by
  induction es generalizing current with
  | nil => rfl
  | cons e es ih =>
    cases he : e.isSupported with
    | true =>
      rw [List.filter_cons_of_pos he]
      simp only [linksOf, linkOf_skip_eq_reject he, Traced.outcome_bind, ih]
    | false =>
      -- the shape is left as it is, so the rest is built behind the same one
      rw [List.filter_cons_of_neg (by simp [he]), ← ih]
      simp only [linksOf, linkOf_skip_of_unsupported he, Traced.outcome_bind, Traced.outcome_pure,
        Option.toList_none, lastShape_nil, List.nil_append]
      cases (linksOf .skip current es).outcome <;> rfl

/-! ## The elements that are met -/

/-- **The elements met before the end or the first error** are the
longest part of the path from its beginning that builds. -/
structure Met (root : Shape) (es met : List Element) : Prop where
  front : met <+: es
  builds : ∃ c, (build .skip root met).outcome = .ok c
  longest : ∀ longer c, longer <+: es → (build .skip root longer).outcome = .ok c →
    longer <+: met

/-- The warnings of the elements that are not followed. -/
def skippedIn (es : List Element) : List Event :=
  (es.filter fun e => !e.isSupported).map .skipped

theorem outcome_build (policy : UnsupportedPolicy) (root : Shape) (es : List Element) :
    (build policy root es).outcome = (linksOf policy root es).outcome.map (Chain.mk root) := by
  simp only [build, Traced.outcome_bind, Traced.outcome_pure]
  cases (linksOf policy root es).outcome <;> rfl

theorem warnings_build (policy : UnsupportedPolicy) (root : Shape) (es : List Element) :
    (build policy root es).warnings = (linksOf policy root es).warnings := by
  rw [build, Traced.warnings_bind]
  cases (linksOf policy root es).outcome <;> exact List.append_nil _

/-- Behind an element that fails nothing is built. -/
theorem outcome_build_cons_of_error (h : (linkOf policy root e).outcome = .error why) :
    (build policy root (e :: es)).outcome = .error why := by
  simp only [outcome_build, linksOf, Traced.outcome_bind, h, Except.map]

/-- Behind any other, the rest is built from the shape that it gives. -/
theorem outcome_build_cons_of_ok {link : Option Link}
    (h : (linkOf policy root e).outcome = .ok link) :
    (build policy root (e :: es)).outcome =
      (build policy (lastShape root link.toList) es).outcome.map
        fun c => ⟨root, link.toList ++ c.links⟩ := by
  simp only [outcome_build, linksOf, Traced.outcome_bind, h]
  cases (linksOf policy (lastShape root link.toList) es).outcome <;> rfl

/-- The elements met go on behind an element that does not fail. -/
theorem Met.cons {met : List Element} {link : Option Link}
    (hlink : (linkOf .skip root e).outcome = .ok link)
    (h : Met (lastShape root link.toList) es met) : Met root (e :: es) (e :: met) where
  front := List.cons_prefix_cons.2 ⟨rfl, h.front⟩
  builds := by
    obtain ⟨c, hc⟩ := h.builds
    rw [outcome_build_cons_of_ok hlink, hc]
    exact ⟨_, rfl⟩
  longest longer c hlonger hc := by
    cases longer with
    | nil => exact List.nil_prefix
    | cons first longer =>
      obtain ⟨rfl, hfront⟩ := List.cons_prefix_cons.1 hlonger
      rw [outcome_build_cons_of_ok hlink] at hc
      cases hrest : (build .skip (lastShape root link.toList) longer).outcome with
      | error why =>
        rw [hrest] at hc
        cases hc
      | ok c' => exact List.cons_prefix_cons.2 ⟨rfl, h.longest longer c' hfront hrest⟩

/-- And end in front of one that does. -/
theorem met_nil (hlink : (linkOf .skip root e).outcome = .error why) : Met root (e :: es) [] where
  front := List.nil_prefix
  builds := ⟨⟨root, []⟩, rfl⟩
  longest longer c hlonger hc := by
    cases longer with
    | nil => exact List.nil_prefix
    | cons first longer =>
      obtain ⟨rfl, -⟩ := List.cons_prefix_cons.1 hlonger
      rw [outcome_build_cons_of_error hlink] at hc
      cases hc

theorem skippedIn_append (xs ys : List Element) :
    skippedIn (xs ++ ys) = skippedIn xs ++ skippedIn ys := by
  simp [skippedIn]

/-- An element leaves the warning that it is skipped with, or none. -/
theorem warnings_linkOf_skip (current : Shape) (e : Element) :
    (linkOf .skip current e).warnings = skippedIn [e] := by
  cases he : e.isSupported with
  | true => simp [warnings_linkOf he, skippedIn, he]
  | false =>
    simp [linkOf_skip_of_unsupported he, skippedIn, he, Traced.warnings, Event.level]

/-- One that fails leaves none, since it is not skipped. -/
theorem skippedIn_of_error (h : (linkOf .skip root e).outcome = .error why) :
    skippedIn [e] = [] := by
  cases he : e.isSupported with
  | true => simp [skippedIn, he]
  | false =>
    rw [linkOf_skip_of_unsupported he] at h
    cases h

/-- **Skipping warns of each element met that is not followed, in
order**; by induction on the path. -/
theorem exists_met_warnings (root : Shape) (es : List Element) :
    ∃ met, Met root es met ∧ (linksOf .skip root es).warnings = skippedIn met := by
  induction es generalizing root with
  | nil => exact ⟨[], ⟨List.nil_prefix, ⟨⟨root, []⟩, rfl⟩, fun _ _ h _ => h⟩, rfl⟩
  | cons e es ih =>
    cases hlink : (linkOf .skip root e).outcome with
    | error why =>
      refine ⟨[], met_nil hlink, ?_⟩
      simp only [linksOf, Traced.warnings_bind, warnings_linkOf_skip, hlink,
        skippedIn_of_error hlink, List.append_nil]
      rfl
    | ok link =>
      obtain ⟨met, hmet, hwarnings⟩ := ih (lastShape root link.toList)
      refine ⟨e :: met, hmet.cons hlink, ?_⟩
      have hrest : (linksOf .skip root (e :: es)).warnings =
          skippedIn [e] ++ (linksOf .skip (lastShape root link.toList) es).warnings := by
        simp only [linksOf, Traced.warnings_bind, warnings_linkOf_skip, hlink]
        cases (linksOf .skip (lastShape root link.toList) es).outcome <;>
          simp [Traced.warnings]
      rw [hrest, hwarnings, ← skippedIn_append, List.singleton_append]

/-! ## Refusing -/

/-- **The first element that is not followed is refused**, unless what
stands in front of it fails. -/
theorem outcome_build_reject_append (hu : u.isSupported = false) :
    (build .reject root (pre ++ u :: post)).outcome =
      (build .reject root pre).outcome >>= fun _ => .error (.unsupportedElement u) := by
  have hrefused (current : Shape) :
      (build .reject current (u :: post)).outcome = .error (.unsupportedElement u) := by
    apply outcome_build_cons_of_error
    rw [linkOf_reject_of_unsupported hu, Traced.outcome_fail]
  simp only [build_append, Traced.outcome_bind, hrefused]
  cases (build .reject root pre).outcome <;> rfl

/-- **Where nothing is refused, each element that gives a link has one**,
and there are no other links. -/
theorem length_of_linksOf_reject (h : (linksOf .reject current es).outcome = .ok links) :
    links.length = es.countP Element.hasLink := by
  induction es generalizing current links with
  | nil =>
    cases h
    rfl
  | cons e es ih =>
    obtain ⟨link, more, hlink, hmore, rfl⟩ := exists_of_linksOf_cons h
    rw [List.length_append, length_of_linkOf_reject hlink, ih hmore, List.countP_cons, Nat.add_comm]

/-- **Elements that are not followed are erased or refused, never
misapplied.** Skipping them gives the chain of the path without them, or
its error, and warns of each one that is met before the end or the first
error. Otherwise the first of them is refused by its kind and rendering,
unless the path in front of it fails already, which is the error then;
and a path that builds has a link for each property and each filter. -/
theorem unsupported_skipped_or_refused (root : Shape) (es : List Element) :
    (build .skip root es).outcome =
        (build .reject root (es.filter Element.isSupported)).outcome ∧
      (∃ met, Met root es met ∧
        (build .skip root es).warnings =
          (met.filter fun e => !e.isSupported).map Event.skipped) ∧
      (∀ pre u post, es = pre ++ u :: post → (∀ e ∈ pre, e.isSupported = true) →
        u.isSupported = false →
        (∀ why, (build .reject root pre).outcome = .error why →
          (build .reject root es).outcome = .error why) ∧
        ∀ c, (build .reject root pre).outcome = .ok c →
          (build .reject root es).outcome = .error (.unsupportedElement u) ∧
            (CompileError.unsupportedElement u).message =
              "Unsupported path element '" ++ u.render ++ "' (" ++ u.kind ++ ")") ∧
      ∀ c, (build .reject root es).outcome = .ok c →
        c.links.length = es.countP Element.hasLink := by
  refine ⟨?_, ?_, ?_, ?_⟩
  · rw [outcome_build, outcome_linksOf_skip, ← outcome_build]
  · rw [warnings_build]
    exact exists_met_warnings root es
  · rintro pre u post rfl - hu
    rw [outcome_build_reject_append hu]
    constructor
    · intro why hwhy
      rw [hwhy]
      rfl
    · intro c hc
      rw [hc]
      exact ⟨rfl, rfl⟩
  · intro c hc
    obtain ⟨links, hlinks, h⟩ := Traced.exists_of_outcome_bind hc
    cases h
    exact length_of_linksOf_reject hlinks

/-! ## A path with stray elements -/

/-- The elements of `.items[*][?(@.Type=='3')][0].Missing.*`. -/
def strayElements : List Element :=
  [.root, .property "items", .anyArrayIndex, .filter "@.Type=='3'", .arrayIndex 0,
   .property "Missing", .anyProperty]

/-- The chain in front of the first stray element. -/
def itemsChain : Chain :=
  ⟨stockShape, [⟨.lookup (.member "items"), .list itemShape⟩]⟩

/-- Two stray elements are skipped with a warning, and the third stands
behind a member that is missing. Without skipping the first of them is
refused. A missing member in front of a stray element is the error
itself, and a path without stray elements has its three links. -/
theorem unsupported_skipped_or_refused_strayElements :
    (build .skip stockShape strayElements).outcome = .error (.unknownMember "Item" "Missing") ∧
      (∃ met, Met stockShape strayElements met ∧
        [.skipped .anyArrayIndex, .skipped (.arrayIndex 0)] =
          (met.filter fun e => !e.isSupported).map Event.skipped) ∧
      (build .reject stockShape [.root, .property "items"]).outcome = .ok itemsChain ∧
      (build .reject stockShape strayElements).outcome =
        .error (.unsupportedElement .anyArrayIndex) ∧
      (build .reject stockShape [.root, .property "Missing", .anyProperty]).outcome =
        .error (.unknownMember "Stock" "Missing") ∧
      (build .reject stockShape statusElements).outcome = .ok statusChain ∧
      statusChain.links.length = statusElements.countP Element.hasLink := by
  have hfront : (build .reject stockShape [.root, .property "items"]).outcome = .ok itemsChain :=
    rfl
  have hchain : (build .reject stockShape statusElements).outcome = .ok statusChain := rfl
  have hwarnings : (build .skip stockShape strayElements).warnings =
      [.skipped .anyArrayIndex, .skipped (.arrayIndex 0)] := rfl
  obtain ⟨herased, hmet, hrefused, -⟩ := unsupported_skipped_or_refused stockShape strayElements
  obtain ⟨-, -, hfails, -⟩ :=
    unsupported_skipped_or_refused stockShape [.root, .property "Missing", .anyProperty]
  obtain ⟨-, -, -, hlength⟩ := unsupported_skipped_or_refused stockShape statusElements
  rw [hwarnings] at hmet
  refine ⟨herased.trans rfl, hmet, hfront, ?_, ?_, hchain, hlength _ hchain⟩
  · exact ((hrefused [.root, .property "items"] .anyArrayIndex _ rfl (by decide) rfl).2 _
      hfront).1
  · exact (hfails [.root, .property "Missing"] .anyProperty [] rfl (by decide) rfl).1 _ rfl

end Chain

end PathAccess
