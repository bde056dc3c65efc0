import PathAccess.Proofs.Chain.NullSafety
/-!
# The form of a guarded chain

A guarded chain is its plain plan inside guards, one within the other:
one for every link whose shape may be null, in the order of the links,
each of which looks at the prefix of the chain that ends with its link.
Links of the shapes that are never null have no guard, wherever they
stand. Nothing is asked of the chain: its shapes need not fit its steps.

Guarding walks the links with the read before them at hand, and puts one
guard into the next. Here the guards are read off the finished plan
(`Plan.guards`) and named by the positions of their links. What a plan
reads depends on its guards one after the other: the first that is not
passed decides, and if all are passed, the plan inside them.
-/

namespace PathAccess

/-! ## The guards around a plan -/

namespace Plan

variable {document d : Json} {p subject base : Plan} {before behind : List (Plan × Json)}
variable {steps : List Step}

/-- The guards around a plan from the outermost on, each with its subject
and its fallback. -/
def guards : Plan → List (Plan × Json)
  | guarded subject fallback body => (subject, fallback) :: body.guards
  | _ => []

/-- The plan inside all guards. -/
def core : Plan → Plan
  | guarded _ _ body => body.core
  | p => p

/-- **A plan is its guards around its core.** -/
theorem foldr_guards (p : Plan) :
    p.guards.foldr (fun g body => guarded g.1 g.2 body) p.core = p := by
  induction p with
  | root => rfl
  | access => rfl
  | guarded subject fallback body _ ih => exact congrArg (guarded subject fallback) ih

/-- So without guards it is its core. -/
theorem core_of_guards_eq_nil (h : p.guards = []) : p.core = p := by
  have hself := foldr_guards p
  rw [h] at hself
  exact hself

/-- Reads have no guards around them. -/
theorem guards_accessAll (h : base.guards = []) : (base.accessAll steps).guards = [] := by
  induction steps generalizing base with
  | nil => exact h
  | cons s steps ih => exact ih rfl

theorem guards_guardAll (d : Json) (subjects : List Plan) (body : Plan) :
    (Chain.guardAll d subjects body).guards = subjects.map (fun s => (s, d)) ++ body.guards := by
  induction subjects with
  | nil => rfl
  | cons s subjects ih => exact congrArg ((s, d) :: ·) ih

theorem core_guardAll (d : Json) (subjects : List Plan) (body : Plan) :
    (Chain.guardAll d subjects body).core = body.core := by
  induction subjects with
  | nil => rfl
  | cons s subjects ih => exact ih

/-- A guard is passed where its subject reads something but null. -/
def Passes (document : Json) (subject : Plan) : Prop :=
  ∃ r, subject.evaluate document = .ok r ∧ r.value ≠ .null

/-- **Where every guard is passed, the core is evaluated.** -/
theorem evaluate_of_passes (h : ∀ g ∈ p.guards, Passes document g.1) :
    p.evaluate document = p.core.evaluate document := by
  induction p with
  | root => rfl
  | access => rfl
  | guarded subject d body _ ih =>
    obtain ⟨⟨r, hr, hne⟩, hbody⟩ := List.forall_mem_cons.1 h
    rw [evaluate_guarded_of_ne_null hr hne]
    exact ih hbody

/-- **The first guard that is not passed decides**: with its own error,
or with its fallback. -/
theorem evaluate_of_first_guard (hguards : p.guards = before ++ (subject, d) :: behind)
    (hbefore : ∀ g ∈ before, Passes document g.1) :
    (∀ e, subject.evaluate document = .error e → p.evaluate document = .error e) ∧
      ∀ r, subject.evaluate document = .ok r → r.value = .null →
        p.evaluate document = .ok (.constant d) := by
  induction p generalizing before with
  | root => exact absurd hguards.symm (by simp [guards])
  | access => exact absurd hguards.symm (by simp [guards])
  | guarded outer fallback body _ ih =>
    cases before with
    | nil =>
      cases hguards
      exact ⟨fun e => evaluate_guarded_of_error, fun r => evaluate_guarded_of_null⟩
    | cons g before =>
      obtain ⟨rfl, hrest⟩ := List.cons.inj hguards
      obtain ⟨⟨r, hr, hne⟩, hbefore⟩ := List.forall_mem_cons.1 hbefore
      rw [evaluate_guarded_of_ne_null hr hne]
      exact ih hrest hbefore

/-- How many reads stand behind each other at the end of a plan. -/
def depth : Plan → Nat
  | access base _ => base.depth + 1
  | _ => 0

theorem depth_accessAll (base : Plan) (steps : List Step) :
    (base.accessAll steps).depth = base.depth + steps.length := by
  induction steps generalizing base with
  | nil => rfl
  | cons s steps ih =>
    rw [accessAll_cons, ih, depth, List.length_cons]
    omega

end Plan

/-- The shapes that are never null have their fallbacks. -/
theorem Shape.exists_fallback_of_isValueKind {s : Shape} (h : s.isValueKind = true) :
    ∃ d, s.fallback = .ok d := by
  cases s <;> first | exact ⟨_, rfl⟩ | cases h

/-! ## The guards of a chain -/

namespace Chain

variable {c : Chain} {d document : Json} {g : Plan} {i k : Nat} {l : Link} {e : CompileError}

/-- The positions of links whose shapes may be null. -/
def nullableAt (links : List Link) : List Nat :=
  (List.range links.length).filter fun i => links[i]?.any fun l => l.shape.isNullable

theorem nullableAt_cons (l : Link) (links : List Link) :
    nullableAt (l :: links) =
      if l.shape.isNullable then 0 :: (nullableAt links).map (· + 1)
      else (nullableAt links).map (· + 1) := by
  simp only [nullableAt, List.length_cons, List.range_succ_eq_map, List.filter_cons,
    List.filter_map]
  rfl

theorem mem_nullableAt_iff {links : List Link} :
    i ∈ nullableAt links ↔ ∃ l, links[i]? = some l ∧ l.shape.isNullable = true := by
  simp only [nullableAt, List.mem_filter, List.mem_range, Option.any_eq_true]
  constructor
  · exact fun h => h.2
  · rintro ⟨l, hl, hnull⟩
    exact ⟨(List.getElem?_eq_some_iff.1 hl).1, l, hl, hnull⟩

/-- They stand in order. -/
theorem pairwise_nullableAt (links : List Link) : (nullableAt links).Pairwise (· < ·) :=
  List.pairwise_lt_range.filter _

/-- **The reads that are guarded are the prefixes that end at these
positions.** -/
theorem nullableReads_eq (base : Plan) (links : List Link) :
    nullableReads base links =
      (nullableAt links).map fun i => base.accessAll ((links.take (i + 1)).map Link.step) := by
  induction links generalizing base with
  | nil => rfl
  | cons l links ih =>
    rw [nullableReads, nullableAt_cons, ih]
    split <;> simp [Function.comp_def]

/-- **A plan is the chain inside its guards.** -/
structure GuardedBy (c : Chain) (d : Json) (g : Plan) : Prop where
  guards : g.guards = (nullableAt c.links).map fun i => (c.upTo (i + 1), d)
  core : g.core = c.plan

theorem guards_plan (c : Chain) : c.plan.guards = [] :=
  Plan.guards_accessAll rfl

/-- What guarding gives is such a plan. -/
theorem guardedBy_guardAll (c : Chain) (d : Json) :
    c.GuardedBy d (guardAll d (nullableReads .root c.links) c.plan) where
  guards := by
    rw [Plan.guards_guardAll, guards_plan, List.append_nil, nullableReads_eq, List.map_map]
    rfl
  core := by
    rw [Plan.core_guardAll, Plan.core_of_guards_eq_nil (guards_plan c)]

/-- A chain of at most one link is left as it is. -/
theorem outcome_guarded_of_short (h : c.links.length < 2) : c.guarded.outcome = .ok c.plan := by
  have hshort : c.links.length ≤ 1 := by omega
  simp [guarded, hshort]

/-- **A longer one has the errors of the fallback**, and no others. -/
theorem outcome_guarded_eq_error_iff (h : 2 ≤ c.links.length) :
    c.guarded.outcome = .error e ↔ c.finalShape.fallback = .error e := by
  cases hfallback : c.finalShape.fallback with
  | ok d =>
    rw [outcome_guarded h hfallback]
    exact ⟨nofun, nofun⟩
  | error e' =>
    have hlong : ¬ c.links.length ≤ 1 := by omega
    simp [guarded, hlong, hfallback]

/-- The final shape of a chain with links is that of a link. -/
theorem exists_finalShape_eq (h : c.links ≠ []) : ∃ l ∈ c.links, c.finalShape = l.shape := by
  rcases List.eq_nil_or_concat c.links with hnil | ⟨front, l, hlinks⟩
  · exact absurd hnil h
  · refine ⟨l, by simp [hlinks], ?_⟩
    simp [finalShape, hlinks]

/-- A prefix is known by its length. -/
theorem upTo_inj (hi : i ≤ c.links.length) (hk : k ≤ c.links.length)
    (h : c.upTo i = c.upTo k) : i = k := by
  have hdepth := congrArg Plan.depth h
  simp only [upTo, Plan.depth_accessAll, List.length_map, List.length_take] at hdepth
  omega

namespace GuardedBy

/-- **It is made of nothing else**: the guards stand one within the other
around the plain plan. -/
theorem eq_foldr (h : c.GuardedBy d g) :
    g = (nullableAt c.links).foldr (fun i body => .guarded (c.upTo (i + 1)) d body) c.plan := by
  have hself := Plan.foldr_guards g
  rw [h.guards, h.core, List.foldr_map] at hself
  exact hself.symm

/-- **A link that is never null has no guard.** -/
theorem not_mem_of_isValueKind (h : c.GuardedBy d g) (hl : c.links[i]? = some l)
    (hkind : l.shape.isValueKind = true) (fallback : Json) :
    (c.upTo (i + 1), fallback) ∉ g.guards := by
  intro hmem
  rw [h.guards] at hmem
  obtain ⟨k, hk, hguard⟩ := List.mem_map.1 hmem
  obtain ⟨l', hl', hnull⟩ := mem_nullableAt_iff.1 hk
  have hilt : i < c.links.length := (List.getElem?_eq_some_iff.1 hl).1
  have hklt : k < c.links.length := (List.getElem?_eq_some_iff.1 hl').1
  have hsame : k + 1 = i + 1 := upTo_inj hklt hilt (congrArg Prod.fst hguard)
  obtain rfl : k = i := Nat.succ.inj hsame
  obtain rfl : l' = l := Option.some.inj (hl'.symm.trans hl)
  simp [Shape.isNullable, hkind] at hnull

/-- In a chain without links that may be null it is the plain plan. -/
theorem eq_plan (h : c.GuardedBy d g) (hkinds : ∀ l ∈ c.links, l.shape.isValueKind = true) :
    g = c.plan := by
  have hnone : nullableAt c.links = [] := by
    refine List.eq_nil_iff_forall_not_mem.2 fun i hi => ?_
    obtain ⟨l, hl, hnull⟩ := mem_nullableAt_iff.1 hi
    have hkind := hkinds l (List.mem_of_getElem? hl)
    simp [Shape.isNullable, hkind] at hnull
  have hguards : g.guards = [] := by rw [h.guards, hnone, List.map_nil]
  rw [← h.core, Plan.core_of_guards_eq_nil hguards]

/-- **The guards under evaluation.** The first link whose guard is not
passed decides; if there is none, the plain plan does. -/
theorem evaluate (h : c.GuardedBy d g) (document : Json) :
    (∀ i ∈ nullableAt c.links,
      (∀ k ∈ nullableAt c.links, k < i → Plan.Passes document (c.upTo (k + 1))) →
      (∀ e, (c.upTo (i + 1)).evaluate document = .error e → g.evaluate document = .error e) ∧
      ∀ r, (c.upTo (i + 1)).evaluate document = .ok r → r.value = .null →
        g.evaluate document = .ok (.constant d)) ∧
    ((∀ i ∈ nullableAt c.links, Plan.Passes document (c.upTo (i + 1))) →
      g.evaluate document = c.plan.evaluate document) := by
  constructor
  · intro i hi hbefore
    obtain ⟨before, behind, hsplit⟩ := List.append_of_mem hi
    have hlt : ∀ k ∈ before, k < i := by
      have hordered := hsplit ▸ pairwise_nullableAt c.links
      exact fun k hk => (List.pairwise_append.1 hordered).2.2 k hk i List.mem_cons_self
    have hguards := h.guards
    rw [hsplit, List.map_append, List.map_cons] at hguards
    refine Plan.evaluate_of_first_guard hguards ?_
    intro guard hguard
    obtain ⟨k, hk, rfl⟩ := List.mem_map.1 hguard
    exact hbefore k (hsplit ▸ List.mem_append_left _ hk) (hlt k hk)
  · intro hpasses
    rw [← h.core]
    refine Plan.evaluate_of_passes fun guard hguard => ?_
    rw [h.guards] at hguard
    obtain ⟨i, hi, rfl⟩ := List.mem_map.1 hguard
    exact hpasses i hi

end GuardedBy

/-- **The form of a guarded chain.** A chain of at most one link is its
plain plan. A longer one fails as the fallback of its final shape does;
else it is the plain plan inside one guard for each link whose shape may
be null, from the first link outside to the last one inside, each with
the prefix up to and including its link for a subject and that fallback.
Links of shapes that are never null are no subjects, and a chain of such
links alone is its plain plan. Evaluated on any root, the first subject
that fails gives its error and the first that is null the fallback,
whichever comes first; else the plain plan is evaluated. -/
theorem guarded_form (c : Chain) :
    ((nullableAt c.links).Pairwise (· < ·) ∧
      ∀ i, i ∈ nullableAt c.links ↔ ∃ l, c.links[i]? = some l ∧ l.shape.isNullable = true) ∧
    (c.links.length < 2 → c.guarded.outcome = .ok c.plan) ∧
    (2 ≤ c.links.length →
      (∀ e, c.guarded.outcome = .error e ↔ c.finalShape.fallback = .error e) ∧
      ∀ d, c.finalShape.fallback = .ok d → ∃ g, c.guarded.outcome = .ok g ∧
        g = (nullableAt c.links).foldr (fun i body => .guarded (c.upTo (i + 1)) d body) c.plan ∧
        g.guards = (nullableAt c.links).map (fun i => (c.upTo (i + 1), d)) ∧
        (∀ i l, c.links[i]? = some l → l.shape.isValueKind = true →
          ∀ fallback, (c.upTo (i + 1), fallback) ∉ g.guards) ∧
        ∀ document,
          (∀ i ∈ nullableAt c.links,
            (∀ k ∈ nullableAt c.links, k < i → Plan.Passes document (c.upTo (k + 1))) →
            (∀ e, (c.upTo (i + 1)).evaluate document = .error e →
              g.evaluate document = .error e) ∧
            ∀ r, (c.upTo (i + 1)).evaluate document = .ok r → r.value = .null →
              g.evaluate document = .ok (.constant d)) ∧
          ((∀ i ∈ nullableAt c.links, Plan.Passes document (c.upTo (i + 1))) →
            g.evaluate document = c.plan.evaluate document)) ∧
    ((∀ l ∈ c.links, l.shape.isValueKind = true) → c.guarded.outcome = .ok c.plan) := by
  refine ⟨⟨pairwise_nullableAt _, fun _ => mem_nullableAt_iff⟩, outcome_guarded_of_short, ?_, ?_⟩
  · intro hlen
    refine ⟨fun _ => outcome_guarded_eq_error_iff hlen, fun d hd => ?_⟩
    have hform := guardedBy_guardAll c d
    exact ⟨_, outcome_guarded hlen hd, hform.eq_foldr, hform.guards,
      fun _ _ => hform.not_mem_of_isValueKind, hform.evaluate⟩
  · intro hkinds
    rcases Nat.lt_or_ge c.links.length 2 with hlt | hlen
    · exact outcome_guarded_of_short hlt
    · have hne : c.links ≠ [] := List.ne_nil_of_length_pos (by omega)
      obtain ⟨l, hl, hfinal⟩ := exists_finalShape_eq hne
      obtain ⟨d, hd⟩ := Shape.exists_fallback_of_isValueKind (hkinds l hl)
      rw [outcome_guarded hlen (hfinal ▸ hd), (guardedBy_guardAll c d).eq_plan hkinds]

/-! ## A count between two names -/

/-- A chain with a link that is never null in its middle. Its shapes have
little to do with its steps. -/
def countedChain : Chain :=
  ⟨.any,
    [⟨.lookup (.member "owner"), .any⟩, ⟨.lookup (.member "count"), .integer⟩,
     ⟨.lookup (.member "name"), .text⟩]⟩

/-- It has guards for the owner and for the name. Where the owner is
null, the guard of the owner gives the fallback; where the count is, the
guard of the name fails. -/
theorem guarded_form_countedChain :
    2 ≤ countedChain.links.length ∧ countedChain.finalShape.fallback = .ok (.string "") ∧
      ∃ g, countedChain.guarded.outcome = .ok g ∧
        g = .guarded (countedChain.upTo 1) (.string "")
          (.guarded (countedChain.upTo 3) (.string "") countedChain.plan) ∧
        g.evaluate (.object [("owner", .null)]) = .ok (.constant (.string "")) ∧
        g.evaluate (.object [("owner", .object [("count", .null)])]) =
          .error (.nullReference (countedChain.upTo 3)) := by
  have hlen : 2 ≤ countedChain.links.length := by decide
  have hd : countedChain.finalShape.fallback = .ok (.string "") := rfl
  have hat : nullableAt countedChain.links = [0, 2] := rfl
  obtain ⟨-, -, hlong, -⟩ := guarded_form countedChain
  obtain ⟨g, hg, htree, -, -, heval⟩ := (hlong hlen).2 _ hd
  rw [hat] at htree heval
  refine ⟨hlen, hd, g, hg, htree, ?_, ?_⟩
  · have hfirst := (heval (.object [("owner", .null)])).1 0 (by decide)
    exact (hfirst fun k _ hk => absurd hk k.not_lt_zero).2 _ rfl rfl
  · have hlast := (heval (.object [("owner", .object [("count", .null)])])).1 2 (by decide)
    refine (hlast fun k hk hlt => ?_).1 _ rfl
    obtain rfl : k = 0 := by simpa [Nat.ne_of_lt hlt] using hk
    exact ⟨_, rfl, nofun⟩

end Chain

end PathAccess
