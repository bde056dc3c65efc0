import PathAccess.Json.Part
import PathAccess.Proofs.Plan.Evaluation
/-!
# Where the values of a plan come from

A reading carries a mark: its value was found in the document, or the
plan supplied it. The mark is truthful, and nothing is read that is
neither. A found value is a part of the document. A supplied one is null
or a part of a constant that is written in the plan: the fallback of a
guard, or what a step yields where it finds nothing.

A plan may be any tree of reads and guards, whether it was compiled from
a path or not. What makes the induction go through is that a step cuts
its result out of what its base read. So it is enough to say where a
value stands in that base (`accountedFor_apply`), and parts of parts are
parts.
-/

namespace PathAccess

/-! ## Constants -/

/-- What a step yields where it finds nothing. The null of a member that
is missing is not written down. -/
def Step.constants : Step → List Json
  | lookup (.member _) => []
  | lookup (.mapKey _ miss) => [miss]
  | first _ miss => [miss]

/-- The constants that are written in a plan. -/
def Plan.constants : Plan → List Json
  | root => []
  | access base step => base.constants ++ step.constants
  | guarded subject fallback body => subject.constants ++ fallback :: body.constants

/-! ## Readings that are accounted for -/

/-- **A reading is accounted for** by a document and some constants: what
is marked as found is a part of the document, and what is marked as
supplied is null or a part of one of the constants. -/
structure Reading.AccountedFor (document : Json) (constants : List Json) (r : Reading) : Prop where
  found : r.origin = .document → Json.Part r.value document
  supplied : r.origin = .constant → r.value = .null ∨ ∃ d ∈ constants, Json.Part r.value d

namespace Reading

variable {document v : Json} {cs ds : List Json} {base r : Reading}

theorem accountedFor_found (h : Json.Part v document) : (found v).AccountedFor document cs :=
  ⟨fun _ => h, nofun⟩

theorem accountedFor_constant (h : v = .null ∨ ∃ d ∈ cs, Json.Part v d) :
    (constant v).AccountedFor document cs :=
  ⟨nofun, fun _ => h⟩

/-- More constants account for no less. -/
theorem AccountedFor.mono (h : r.AccountedFor document cs) (hsub : cs ⊆ ds) :
    r.AccountedFor document ds := by
  refine ⟨h.found, fun hr => ?_⟩
  rcases h.supplied hr with hnull | ⟨d, hd, hpart⟩
  · exact .inl hnull
  · exact .inr ⟨d, hsub hd, hpart⟩

/-- A part of a value that is null or a part of a constant is so too. -/
theorem supplied_of_part {w : Json} (hpart : Json.Part w v)
    (h : v = .null ∨ ∃ d ∈ cs, Json.Part v d) : w = .null ∨ ∃ d ∈ cs, Json.Part w d := by
  rcases h with rfl | ⟨d, hd, hv⟩
  · exact .inl hpart.eq_of_null
  · exact .inr ⟨d, hd, hpart.trans hv⟩

/-- **What is read out of a reading is accounted for with it.** -/
theorem AccountedFor.outOf (hbase : base.AccountedFor document cs)
    (hr : r.AccountedFor base.value ds) :
    (r.outOf base.origin).AccountedFor document (cs ++ ds) := by
  have hright : ds ⊆ cs ++ ds := fun d hd => List.mem_append_right cs hd
  have hleft : cs ⊆ cs ++ ds := fun d hd => List.mem_append_left ds hd
  cases horigin : base.origin with
  | document =>
    -- the base is a part of the document, and so are its parts
    refine ⟨fun hfound => ?_, (hr.mono hright).supplied⟩
    exact (hr.found hfound).trans (hbase.found horigin)
  | constant =>
    -- whatever the mark of the part, it counts as supplied
    refine accountedFor_constant ?_
    cases hmark : r.origin with
    | document =>
      exact supplied_of_part (hr.found hmark) ((hbase.mono hleft).supplied horigin)
    | constant => exact (hr.mono hright).supplied hmark

end Reading

/-! ## Steps -/

namespace Step

variable {step : Step} {v : Json} {r : Reading}

theorem accountedFor_readEntry (l : Lookup) (entries : List (String × Json)) :
    (readEntry l entries).AccountedFor (.object entries) (constants (.lookup l)) := by
  simp only [readEntry]
  split
  · rename_i value hvalue
    exact Reading.accountedFor_found (.of_entryValue? hvalue)
  · apply Reading.accountedFor_constant
    cases l with
    | member name => exact .inl rfl
    | mapKey key miss => exact .inr ⟨miss, List.mem_singleton_self miss, .refl miss⟩

theorem accountedFor_readFirst (p : Filter.Predicate) (miss : Json) (items : List Json) :
    (readFirst p miss items).AccountedFor (.array items) (constants (.first p miss)) := by
  simp only [readFirst]
  split
  · rename_i item hitem
    exact Reading.accountedFor_found (.item (List.mem_of_find?_eq_some hitem) (.refl item))
  · apply Reading.accountedFor_constant
    exact .inr ⟨miss, List.mem_singleton_self miss, .refl miss⟩

/-- **A step reads a part of the value, or what it has for want of one.** -/
theorem accountedFor_apply (h : step.apply v = .ok r) : r.AccountedFor v step.constants := by
  cases step with
  | lookup l =>
    cases v with
    | object entries =>
      cases h
      exact accountedFor_readEntry l entries
    | _ => cases h
  | first p miss =>
    cases v with
    | array items =>
      cases h
      exact accountedFor_readFirst p miss items
    | _ => cases h

end Step

/-! ## Plans -/

namespace Plan

variable {document : Json} {plan base : Plan} {step : Step} {steps : List Step} {r r' : Reading}

/-- A step that succeeds reads out of its base. -/
theorem exists_apply_of_applyStep (h : applyStep plan step r = .ok r') :
    ∃ part, step.apply r.value = .ok part ∧ r' = part.outOf r.origin := by
  simp only [applyStep] at h
  split at h
  · rename_i part hpart
    exact ⟨part, hpart, (Except.ok.inj h).symm⟩
  · cases h

/-- A read that succeeds goes on from a base that does. -/
theorem exists_evaluate_base (h : (base.access step).evaluate document = .ok r) :
    ∃ b, base.evaluate document = .ok b ∧ applyStep (base.access step) step b = .ok r := by
  cases hbase : base.evaluate document with
  | error e =>
    rw [evaluate_access_of_error hbase] at h
    cases h
  | ok b =>
    rw [evaluate_access_of_ok hbase] at h
    exact ⟨b, rfl, h⟩

/-- **Every reading of a plan is accounted for** by the document and the
constants of the plan; by induction on the plan. -/
theorem accountedFor_evaluate (h : plan.evaluate document = .ok r) :
    r.AccountedFor document plan.constants := by
  induction plan generalizing r with
  | root =>
    cases h
    exact Reading.accountedFor_found (.refl document)
  | access base step ih =>
    obtain ⟨b, hb, hstep⟩ := exists_evaluate_base h
    obtain ⟨part, hpart, rfl⟩ := exists_apply_of_applyStep hstep
    exact (ih hb).outOf (Step.accountedFor_apply hpart)
  | guarded subject fallback body _ ihBody =>
    simp only [evaluate] at h
    split at h
    · split at h
      · cases h
        refine Reading.accountedFor_constant (.inr ⟨fallback, ?_, .refl fallback⟩)
        exact List.mem_append_right _ List.mem_cons_self
      · refine (ihBody h).mono fun d hd => ?_
        exact List.mem_append_right _ (List.mem_cons_of_mem fallback hd)
    · cases h

/-- What is read out of something supplied is supplied. -/
theorem origin_of_applyStep (hr : r.origin = .constant) (h : applyStep plan step r = .ok r') :
    r'.origin = .constant := by
  obtain ⟨part, -, rfl⟩ := exists_apply_of_applyStep h
  rw [hr]
  rfl

/-- **And so is everything behind it**, by induction on the steps. -/
theorem origin_of_evaluate_accessAll (hbase : base.evaluate document = .ok r)
    (hr : r.origin = .constant) (h : (base.accessAll steps).evaluate document = .ok r') :
    r'.origin = .constant := by
  induction steps generalizing base r with
  | nil =>
    rw [accessAll_nil, hbase] at h
    exact Except.ok.inj h ▸ hr
  | cons step steps ih =>
    cases hstep : applyStep (base.access step) step r with
    | error e =>
      have hread : (base.access step).evaluate document = .error e := by
        rw [evaluate_access_of_ok hbase, hstep]
      rw [accessAll_cons, evaluate_accessAll_of_error hread] at h
      cases h
    | ok next =>
      have hread : (base.access step).evaluate document = .ok next := by
        rw [evaluate_access_of_ok hbase, hstep]
      exact ih hread (origin_of_applyStep hr hstep) h

/-- **A plan invents nothing, and its marks are truthful.** What a plan
reads is a part of the document if it is marked as found. If it is marked
as supplied, it is null or a part of a constant that is written in the
plan, and everything that is read behind it is marked so too. -/
theorem evaluate_invents_nothing (h : plan.evaluate document = .ok r) :
    (r.origin = .document → Json.Part r.value document) ∧
    (r.origin = .constant → r.value = .null ∨ ∃ d ∈ plan.constants, Json.Part r.value d) ∧
    ∀ steps r', r.origin = .constant → (plan.accessAll steps).evaluate document = .ok r' →
      r'.origin = .constant := by
  have haccounted := accountedFor_evaluate h
  refine ⟨haccounted.found, haccounted.supplied, ?_⟩
  intro steps r' hr hread
  exact origin_of_evaluate_accessAll h hr hread

/-! ## A note that is missing -/

/-- Reads the title of a note, or of a fallback where there is no note. -/
def titleOfNote : Plan :=
  .access
    (.guarded (.access .root (.lookup (.member "note")))
      (.object [("title", .object [("en", .string "untitled")])])
      (.access .root (.lookup (.member "note"))))
    (.lookup (.member "title"))

/-- Where there is no note, the title is a part of the fallback, and so
is what is read behind it. -/
theorem evaluate_invents_nothing_titleOfNote :
    titleOfNote.evaluate (.object []) =
        .ok (.constant (.object [("en", .string "untitled")])) ∧
      (∃ d ∈ titleOfNote.constants, Json.Part (.object [("en", .string "untitled")]) d) ∧
      (titleOfNote.accessAll [.lookup (.member "en")]).evaluate (.object []) =
        .ok (.constant (.string "untitled")) ∧
      (Reading.constant (.string "untitled")).origin = .constant := by
  have hread : titleOfNote.evaluate (.object []) =
      .ok (.constant (.object [("en", .string "untitled")])) := rfl
  have hbehind : (titleOfNote.accessAll [.lookup (.member "en")]).evaluate (.object []) =
      .ok (.constant (.string "untitled")) := rfl
  obtain ⟨-, hpart, horigin⟩ := evaluate_invents_nothing hread
  exact ⟨hread, (hpart rfl).resolve_left nofun, hbehind, horigin _ _ rfl hbehind⟩

end Plan

end PathAccess
