import PathAccess.Proofs.Chain.NullSafety
/-!
# The link at which a chain fails

Evaluating a chain goes from link to link, and each reads the value of
the links before it. So a chain that fails does so at one link: what the
links before it read is null, or of a kind that its step is not for. The
error says which of the two it is and names the read up to and including
that link. Longer prefixes hand it on unchanged, and shorter ones have
not come to it.

Nothing is asked of the chain. Its shapes may have nothing to do with
its steps, and the root may be any value.
-/

namespace PathAccess

namespace Chain

variable {c : Chain} {document v v' : Json} {l l' : Link} {k k' m n : Nat} {e : AccessError}

/-! ## Prefixes -/

/-- Every link reads what the links before it read. -/
theorem upTo_succ (h : c.links[k]? = some l) : c.upTo (k + 1) = (c.upTo k).access l.step := by
  simp [upTo, List.take_add_one, h]

/-- Behind the last link there is nothing more to read. -/
theorem upTo_of_length_le (h : c.links.length ≤ n) : c.upTo n = c.plan := by
  rw [upTo, List.take_of_length_le h, plan]

/-- A prefix goes on from a shorter one. -/
theorem exists_upTo_eq_accessAll (h : m ≤ n) : ∃ steps, c.upTo n = (c.upTo m).accessAll steps := by
  refine ⟨((c.links.drop m).take (n - m)).map Link.step, ?_⟩
  have hsplit : c.links.take n = c.links.take m ++ (c.links.drop m).take (n - m) := by
    rw [← List.take_add, Nat.add_sub_cancel' h]
  rw [upTo, hsplit, List.map_append, Plan.accessAll_append, upTo]

/-- **The error of a prefix is that of every longer one.** -/
theorem evaluate_upTo_of_error (h : (c.upTo m).evaluate document = .error e) (hmn : m ≤ n) :
    (c.upTo n).evaluate document = .error e := by
  obtain ⟨steps, hsteps⟩ := exists_upTo_eq_accessAll (c := c) hmn
  rw [hsteps]
  exact Plan.evaluate_accessAll_of_error h

/-- So what comes before a read that succeeds succeeds. -/
theorem exists_evaluate_upTo_of_le (h : ∃ r, (c.upTo n).evaluate document = .ok r) (hmn : m ≤ n) :
    ∃ r, (c.upTo m).evaluate document = .ok r := by
  cases hm : (c.upTo m).evaluate document with
  | ok r => exact ⟨r, rfl⟩
  | error e =>
    obtain ⟨r, hr⟩ := h
    rw [evaluate_upTo_of_error hm hmn] at hr
    cases hr

/-- Steps are written one behind the other. -/
theorem display_accessAll (base : Plan) (links : List Link) :
    (base.accessAll (links.map Link.step)).display =
      base.display ++ String.join (links.map fun l => l.step.display) := by
  induction links generalizing base with
  | nil => exact (String.append_empty).symm
  | cons l links ih =>
    rw [List.map_cons, Plan.accessAll_cons, ih, List.map_cons, String.join_cons,
      ← String.append_assoc]
    rfl

/-- A prefix is written as `x` and the steps that it takes. -/
theorem display_upTo (c : Chain) (n : Nat) :
    (c.upTo n).display = "x" ++ String.join ((c.links.take n).map fun l => l.step.display) :=
  display_accessAll .root _

/-! ## The failing link -/

/-- **A chain fails at a link** whose step does not apply to the value
that the links before it read. -/
structure FailsAt (c : Chain) (document : Json) (k : Nat) (l : Link) (v : Json) : Prop where
  link : c.links[k]? = some l
  read : (c.upTo k).value document = .ok v
  refused : ¬ l.step.Admits v

namespace FailsAt

/-- Up to the link the chain reads. -/
theorem exists_evaluate (h : c.FailsAt document k l v) :
    ∃ r, (c.upTo k).evaluate document = .ok r ∧ r.value = v :=
  Plan.value_eq_ok_iff.1 h.read

/-- The link is one of the chain. -/
theorem lt_length (h : c.FailsAt document k l v) : k < c.links.length := by
  obtain ⟨hk, -⟩ := List.getElem?_eq_some_iff.1 h.link
  exact hk

/-- **With the link it fails**, and every prefix with the link fails
alike. -/
theorem exists_error (h : c.FailsAt document k l v) :
    ∃ e, (∀ n > k, (c.upTo n).evaluate document = .error e) ∧
      (v = .null → e = .nullReference (c.upTo (k + 1))) ∧
      (v ≠ .null → e = .unexpectedValue l.step.container (c.upTo (k + 1))) := by
  obtain ⟨r, hr, rfl⟩ := h.exists_evaluate
  have hread : (c.upTo (k + 1)).evaluate document =
      Plan.applyStep (c.upTo (k + 1)) l.step r := by
    rw [upTo_succ h.link, Plan.evaluate_access_of_ok hr]
  by_cases hnull : r.value = .null
  · rw [Plan.applyStep_of_null hnull] at hread
    refine ⟨_, fun n hn => evaluate_upTo_of_error hread hn, fun _ => rfl, ?_⟩
    exact fun hne => absurd hnull hne
  · rw [Plan.applyStep_of_not_admits h.refused hnull] at hread
    refine ⟨_, fun n hn => evaluate_upTo_of_error hread hn, ?_, fun _ => rfl⟩
    exact fun h => absurd h hnull

/-- So does the whole chain. -/
theorem exists_error_plan (h : c.FailsAt document k l v) :
    ∃ e, c.plan.evaluate document = .error e ∧
      (∀ n > k, (c.upTo n).evaluate document = .error e) ∧
      (v = .null → e = .nullReference (c.upTo (k + 1))) ∧
      (v ≠ .null → e = .unexpectedValue l.step.container (c.upTo (k + 1))) := by
  obtain ⟨e, he, hcause⟩ := h.exists_error
  refine ⟨e, ?_, he, hcause⟩
  rw [← upTo_length]
  exact he _ h.lt_length

/-- No later link is come to. -/
theorem le (h : c.FailsAt document k l v) (h' : c.FailsAt document k' l' v') : k' ≤ k := by
  rcases Nat.lt_or_ge k k' with hlt | hge
  · obtain ⟨e, he, -⟩ := h.exists_error
    obtain ⟨r, hr, -⟩ := h'.exists_evaluate
    rw [he k' hlt] at hr
    cases hr
  · exact hge

/-- **A chain fails at one link only.** -/
theorem unique (h : c.FailsAt document k l v) (h' : c.FailsAt document k' l' v') :
    k' = k ∧ l' = l ∧ v' = v := by
  obtain rfl : k' = k := Nat.le_antisymm (h.le h') (h'.le h)
  have hlink : some l' = some l := h'.link.symm.trans h.link
  have hread : Except.ok v' = Except.ok v := h'.read.symm.trans h.read
  exact ⟨rfl, Option.some.inj hlink, Except.ok.inj hread⟩

end FailsAt

/-- **A prefix that fails has come to the failing link**, by induction on
its length. -/
theorem exists_failsAt_of_error (h : (c.upTo n).evaluate document = .error e) :
    ∃ k l v, c.FailsAt document k l v := by
  induction n with
  | zero => cases h
  | succ n ih =>
    cases hread : (c.upTo n).evaluate document with
    | error e' =>
      have hsame : (c.upTo n).evaluate document = .error e := by
        rw [← h, hread]
        exact (evaluate_upTo_of_error hread n.le_succ).symm
      exact ih hsame
    | ok r =>
      cases hlink : c.links[n]? with
      | none =>
        -- behind the last link the two prefixes are the whole chain
        have hlen : c.links.length ≤ n := List.getElem?_eq_none_iff.1 hlink
        rw [upTo_of_length_le (Nat.le_succ_of_le hlen), ← upTo_of_length_le hlen, hread] at h
        cases h
      | some l =>
        refine ⟨n, l, r.value, hlink, Plan.value_eq_ok_iff.2 ⟨r, hread, rfl⟩, ?_⟩
        intro hadmits
        obtain ⟨r', hr'⟩ := Plan.exists_applyStep_of_admits hadmits
        rw [upTo_succ hlink, Plan.evaluate_access_of_ok hread, hr'] at h
        cases h

/-- **A chain that fails does so at one link.** It fails exactly if there
is a link whose step does not apply to the value that the links before it
read, and there is at most one such link. Every shorter prefix reads
something, and every longer one fails as the whole chain does: with a
null reference if that value is null, and else with the kind of value
that the step is for. The error names the read up to and including the
link, and a prefix is written as `x` and the steps that it takes. -/
theorem fails_at_one_link (c : Chain) (document : Json) :
    ((∃ e, c.plan.evaluate document = .error e) ↔ ∃ k l v, c.FailsAt document k l v) ∧
    (∀ k l v, c.FailsAt document k l v →
      (∀ k' l' v', c.FailsAt document k' l' v' → k' = k ∧ l' = l ∧ v' = v) ∧
      (∀ n ≤ k, ∃ r, (c.upTo n).evaluate document = .ok r) ∧
      ∃ e, c.plan.evaluate document = .error e ∧
        (∀ n > k, (c.upTo n).evaluate document = .error e) ∧
        (v = .null → e = .nullReference (c.upTo (k + 1))) ∧
        (v ≠ .null → e = .unexpectedValue l.step.container (c.upTo (k + 1)))) ∧
    ∀ n, (c.upTo n).display =
      "x" ++ String.join ((c.links.take n).map fun l => l.step.display) := by
  refine ⟨⟨?_, ?_⟩, ?_, display_upTo c⟩
  · rintro ⟨e, he⟩
    rw [← upTo_length] at he
    exact exists_failsAt_of_error he
  · rintro ⟨k, l, v, hfails⟩
    obtain ⟨e, he, -⟩ := hfails.exists_error_plan
    exact ⟨e, he⟩
  · intro k l v hfails
    obtain ⟨r, hr, -⟩ := hfails.exists_evaluate
    exact ⟨fun _ _ _ => hfails.unique, fun n => exists_evaluate_upTo_of_le ⟨r, hr⟩,
      hfails.exists_error_plan⟩

/-! ## A stock without a list of items -/

/-- A stock with an object in place of the list. -/
def unlistedStock : Json := .object [("items", .object [])]

/-- The search is the failing link of a stock without a list: it is
refused the object. Where the list is there and nothing is found, the
link behind the search fails on null. -/
theorem fails_at_one_link_statusChain :
    (∃ l, statusChain.FailsAt unlistedStock 1 l (.object []) ∧
      statusChain.plan.evaluate unlistedStock =
        .error (.unexpectedValue .array (statusChain.upTo 2))) ∧
    (∃ l, statusChain.FailsAt otherStock 2 l .null ∧
      statusChain.plan.evaluate otherStock = .error (.nullReference (statusChain.upTo 3))) ∧
    (statusChain.upTo 2).display = "x.items.first_or_default(y => y.Type == \"3\")" := by
  have hunlisted : statusChain.FailsAt unlistedStock 1
      ⟨.first ⟨[.member "Type"], .equal, .string "3"⟩ .null, itemShape⟩ (.object []) :=
    ⟨rfl, rfl, id⟩
  have hother : statusChain.FailsAt otherStock 2 ⟨.lookup (.member "Status"), .text⟩ .null :=
    ⟨rfl, rfl, id⟩
  obtain ⟨-, -, e, he, -, -, hkind⟩ := (fails_at_one_link _ _).2.1 _ _ _ hunlisted
  obtain ⟨-, -, e', he', -, hnull, -⟩ := (fails_at_one_link _ _).2.1 _ _ _ hother
  refine ⟨⟨_, hunlisted, ?_⟩, ⟨_, hother, ?_⟩, ?_⟩
  · rw [he, hkind nofun]
    rfl
  · rw [he', hnull rfl]
  · rw [(fails_at_one_link statusChain unlistedStock).2.2]
    decide +kernel

end Chain

end PathAccess
