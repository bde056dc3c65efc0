import PathAccess.Proofs.Path.Balance
/-!
# What stands in a bracket

Names, indexes and slices, each read as its grammar has it. A slice is
the one part that does not end where its text does: where a bound or the
step is there, the layout behind it goes with it.
-/

-- powers are those of the core library, also where others are in scope
attribute [local instance (2000)] instPowNat

namespace PathAccess.Path

open Grammar

variable {c : Char} {cs t rest more : List Char} {e : Element}

/-! ## Names -/

theorem reads_name : Reads name? (fun t n => Name t ∧ String.ofList t = n) isNameChar where
  sound {cs n rest} h := by
    simp only [name?, List.isEmpty_iff] at h
    split at h
    · cases h
    · next hne =>
      obtain ⟨rfl, rfl⟩ := Prod.mk.inj (Option.some.inj h)
      exact ⟨_, List.takeWhile_append_dropWhile.symm,
        ⟨hne, fun c hc => List.mem_takeWhile_imp hc⟩, rfl⟩
  complete {t n rest} h hstop := by
    obtain ⟨⟨hne, hname⟩, rfl⟩ := h
    simp [name?, takeWhile_run hname hstop, dropWhile_run hname hstop, hne]

theorem reads_quotedName : Reads quotedName? QuotedName nothing where
  sound {cs n rest} h := by
    rcases cs with _ | ⟨q, cs⟩
    · simp [quotedName?] at h
    · simp only [quotedName?] at h
      split at h
      · next hq =>
        simp only [Option.map_eq_some_iff, after?_eq_some_iff, Prod.mk.injEq] at h
        obtain ⟨rest, hrest, rfl, rfl⟩ := h
        have hbody : q ∉ cs.takeWhile (· != q) := fun hmem => by
          simpa using List.mem_takeWhile_imp hmem
        refine ⟨q :: cs.takeWhile (· != q) ++ [q], ?_, .mk hq hbody⟩
        have hsplit : cs.takeWhile (· != q) ++ q :: rest = cs := by
          rw [← hrest, List.takeWhile_append_dropWhile]
        simp [hsplit]
      · cases h
  complete {t n rest} h _ := by
    obtain ⟨hq, hbody⟩ := h
    rename_i q body
    have hrun : ∀ c ∈ body, (c != q) = true := fun c hc =>
      bne_iff_ne.2 fun heq => hbody (heq ▸ hc)
    have hstop : Stops (· != q) (q :: rest) := stops_cons.2 (by simp)
    simp [quotedName?, hq, takeWhile_run hrun hstop, dropWhile_run hrun hstop]

theorem Grammar.QuotedName.begins {n : String} (h : QuotedName t n) :
    Begins (fun c => c = '\'' ∨ c = '"') t := by
  obtain ⟨hq, -⟩ := h
  exact begins_cons.2 hq

/-- Where no quote opens, there is no quoted name. -/
theorem quotedName?_eq_none (h : Begins (fun c => c ≠ '\'' ∧ c ≠ '"') t) :
    quotedName? (t ++ rest) = none := by
  obtain ⟨c, t, rfl, hc⟩ := h.exists_cons
  simp [quotedName?, hc]

/-! ## Indexes -/

/-- What digits stand for behind a sign. -/
def signedValue (negative : Bool) (t : List Char) : Int :=
  if negative then -(Text.digitsValue t : Int) else Text.digitsValue t

/-- Digits as an index of the given sign, in the range of signed 64-bit
integers. -/
def Signed (negative : Bool) (t : List Char) (i : Int) : Prop :=
  Digits t ∧ i = signedValue negative t ∧ -2 ^ (63 : Nat) ≤ i ∧ i < 2 ^ (63 : Nat)

theorem digits?_eq (negative : Bool) (cs : List Char) :
    digits? negative cs =
      if (cs.takeWhile Char.isDigit).isEmpty ∨
          signedValue negative (cs.takeWhile Char.isDigit) < -2 ^ (63 : Nat) ∨
          2 ^ (63 : Nat) ≤ signedValue negative (cs.takeWhile Char.isDigit) then none
      else some (signedValue negative (cs.takeWhile Char.isDigit), cs.dropWhile Char.isDigit) := by
  rfl

theorem reads_digits (negative : Bool) :
    Reads (digits? negative) (Signed negative) Char.isDigit where
  sound {cs i rest} h := by
    rw [digits?_eq] at h
    split at h
    · cases h
    · next hin =>
      obtain ⟨rfl, rfl⟩ := Prod.mk.inj (Option.some.inj h)
      simp only [not_or, List.isEmpty_iff, Int.not_lt, Int.not_le] at hin
      obtain ⟨hne, hlow, hhigh⟩ := hin
      exact ⟨_, List.takeWhile_append_dropWhile.symm,
        ⟨hne, fun c hc => List.mem_takeWhile_imp hc⟩, rfl, hlow, hhigh⟩
  complete {t i rest} h hstop := by
    obtain ⟨⟨hne, hdigits⟩, rfl, hlow, hhigh⟩ := h
    have hin : ¬ (t.isEmpty ∨ signedValue negative t < -2 ^ (63 : Nat) ∨
        2 ^ (63 : Nat) ≤ signedValue negative t) := by
      rintro (h | h | h)
      · exact hne (List.isEmpty_iff.1 h)
      · omega
      · omega
    rw [digits?_eq, takeWhile_run hdigits hstop, dropWhile_run hdigits hstop, if_neg hin]

/-- An index without a sign begins with a digit, so no sign is taken. -/
theorem index?_of_digits (h : Begins (·.isDigit = true) t) :
    index? (t ++ rest) = digits? false (t ++ rest) := by
  obtain ⟨c, t, rfl, hc⟩ := h.exists_cons
  have hminus : c ≠ '-' := by
    rintro rfl
    exact absurd hc (by decide)
  have hplus : c ≠ '+' := by
    rintro rfl
    exact absurd hc (by decide)
  simp [index?, hminus, hplus]

theorem Grammar.Digits.begins (h : Digits t) : Begins (·.isDigit = true) t :=
  begins_of_forall h.1 h.2

theorem reads_index : Reads index? Index Char.isDigit where
  sound {cs i rest} h := by
    simp only [index?] at h
    split at h
    · obtain ⟨t, rfl, hd, rfl, hlow, -⟩ := (reads_digits true).sound h
      simp only [signedValue, if_true] at hlow ⊢
      exact ⟨'-' :: t, rfl, .minus hd (by omega)⟩
    · obtain ⟨t, rfl, hd, rfl, -, hhigh⟩ := (reads_digits false).sound h
      exact ⟨'+' :: t, rfl, .plus hd hhigh⟩
    · obtain ⟨t, rfl, hd, rfl, -, hhigh⟩ := (reads_digits false).sound h
      exact ⟨t, rfl, .bare hd hhigh⟩
  complete {t i rest} h hstop := by
    -- without a sign, with a plus, with a minus
    rcases h with ⟨hd, hhigh⟩ | ⟨hd, hhigh⟩ | ⟨hd, hlow⟩
    · rw [index?_of_digits hd.begins]
      exact (reads_digits false).complete ⟨hd, rfl, by omega, hhigh⟩ hstop
    · exact (reads_digits false).complete ⟨hd, rfl, by omega, hhigh⟩ hstop
    · exact (reads_digits true).complete ⟨hd, rfl, by omega, by omega⟩ hstop

/-- The characters that an index may begin with. -/
def startsIndex (c : Char) : Bool :=
  c == '+' || c == '-' || c.isDigit

theorem Grammar.Index.begins {i : Int} (h : Index t i) : Begins (startsIndex · = true) t := by
  rcases h with ⟨hd, -⟩ | - | -
  · exact hd.begins.imp fun c hc => by simp [startsIndex, hc]
  · exact begins_cons.2 rfl
  · exact begins_cons.2 rfl

theorem startsIndex_of_isLayout (h : Text.isLayout c = true) : startsIndex c = false := by
  simp only [Text.isLayout, Bool.or_eq_true, beq_iff_eq] at h
  rcases h with ((rfl | rfl) | rfl) | rfl <;> decide

theorem isDigit_of_isLayout (h : Text.isLayout c = true) : c.isDigit = false := by
  have := startsIndex_of_isLayout h
  simp_all [startsIndex]

theorem isLayout_of_startsIndex (h : startsIndex c = true) : Text.isLayout c = false := by
  by_contra hlayout
  rw [startsIndex_of_isLayout (by simpa using hlayout)] at h
  exact Bool.false_ne_true h

/-- Nothing begins an index but these. -/
theorem index?_eq_none (h : Stops startsIndex cs) : index? cs = none := by
  rcases cs with _ | ⟨c, cs⟩
  · rfl
  · simp only [stops_cons, startsIndex, Bool.or_eq_false_iff, beq_eq_false_iff_ne] at h
    obtain ⟨⟨hplus, hminus⟩, hdigit⟩ := h
    have hstop : Stops Char.isDigit (c :: cs) := stops_cons.2 hdigit
    simp [index?, hplus, hminus, digits?_eq, hstop.takeWhile_eq_nil]

/-! ## Slices -/

/-- What is taken for a bound is one. -/
theorem exists_bound (cs : List Char) :
    ∃ b, cs = b ++ (optional (spaced index?) cs).2 ∧
      Bound b (optional (spaced index?) cs).1 := by
  simp only [optional]
  split
  · next i rest h =>
    obtain ⟨r, hindex, rfl⟩ := spaced_eq_some_iff.1 h
    obtain ⟨before, hb, hcs⟩ := exists_skipLayout cs
    obtain ⟨t, ht, hi⟩ := reads_index.sound hindex
    obtain ⟨behind, hb', hrest⟩ := exists_skipLayout r
    refine ⟨before ++ t ++ behind, ?_, .given hb hi hb'⟩
    rw [hcs, ht, List.append_assoc, List.append_assoc, ← hrest]
  · exact ⟨[], rfl, .missing⟩

/-- What may stand behind a bound, layout apart. -/
def EndsBound (cs : List Char) : Prop :=
  Begins (fun c => c = ':' ∨ c = ',' ∨ c = ']') (skipLayout cs)

theorem skipLayout_colon (cs : List Char) : skipLayout (':' :: cs) = ':' :: cs :=
  skipLayout_of_stops (stops_cons.2 (by decide))

theorem endsBound_colon (cs : List Char) : EndsBound (':' :: cs) := by
  simp [EndsBound, skipLayout_colon]

/-- A bound is taken whole, and possibly the layout behind it. -/
theorem bound_append {b : List Char} {o : Option Int} (h : Bound b o) (hrest : EndsBound rest) :
    ∃ r, optional (spaced index?) (b ++ rest) = (o, r) ∧ (r = rest ∨ r = skipLayout rest) := by
  rcases h with _ | ⟨hb, hi, hb'⟩
  · have hstart : Stops startsIndex (skipLayout rest) :=
      hrest.stops (by rintro c (rfl | rfl | rfl) <;> decide)
    refine ⟨rest, ?_, .inl rfl⟩
    simp [optional, spaced, index?_eq_none hstart]
  · rename_i before t behind i
    have hdigit : Stops Char.isDigit (skipLayout rest) :=
      hrest.stops (by rintro c (rfl | rfl | rfl) <;> decide)
    have hstop : Stops Char.isDigit (behind ++ rest) :=
      stops_of_skipLayout (fun _ => isDigit_of_isLayout) (by rwa [skipLayout_append hb'])
    -- the layout behind the index is that of the bound and that of the rest
    have hspaced := reads_index.spaced_append hb (hi.begins.imp fun _ => isLayout_of_startsIndex)
      hi hstop
    refine ⟨skipLayout rest, ?_, .inr rfl⟩
    rw [skipLayout_append hb'] at hspaced
    simp only [optional, List.append_assoc] at hspaced ⊢
    rw [hspaced]

/-- What is taken for the step of a slice is one. -/
theorem exists_sliceStep (cs : List Char) :
    ∃ c, cs = c ++ (optional step? cs).2 ∧ SliceStep c (optional step? cs).1.join := by
  simp only [optional]
  split
  · next o rest h =>
    simp only [step?, Option.bind_eq_bind, Option.bind_eq_some_iff, after?_eq_some_iff,
      Option.pure_def, Option.some.injEq] at h
    obtain ⟨cs, rfl, hbound⟩ := h
    obtain ⟨b, hcs, hb⟩ := exists_bound cs
    rw [hbound] at hcs hb
    exact ⟨':' :: b, by rw [hcs, List.cons_append], .given hb⟩
  · exact ⟨[], rfl, .missing⟩

/-- The step of a slice is taken whole, and possibly the layout behind
it. -/
theorem sliceStep_append {c : List Char} {o : Option Int} (h : SliceStep c o)
    (hrest : skipLayout rest = ']' :: more) :
    ∃ o' r, optional step? (c ++ rest) = (o', r) ∧ o'.join = o ∧ skipLayout r = ']' :: more := by
  rcases h with _ | hb
  · have hcolon : Stops (· == ':') rest := by
      refine stops_char_of_skipLayout (by decide) ?_
      rw [hrest, stops_cons]
      decide
    refine ⟨none, rest, ?_, rfl, hrest⟩
    simp [optional, step?, after?_eq_none_iff.2 hcolon]
  · have hends : EndsBound rest := by simp [EndsBound, hrest]
    obtain ⟨r, hread, hr⟩ := bound_append hb hends
    refine ⟨some o, r, ?_, rfl, ?_⟩
    · simp only [optional, step?, List.cons_append, after?_cons_self] at hread ⊢
      simp [hread]
    · rcases hr with rfl | rfl
      · exact hrest
      · rw [skipLayout_skipLayout, hrest]

/-- What is taken for a slice is one. -/
theorem slice?_sound (h : slice? cs = some (e, rest)) : ∃ t, cs = t ++ rest ∧ Body t e := by
  simp only [slice?, Option.bind_eq_bind, Option.bind_eq_some_iff, after?_eq_some_iff,
    Option.pure_def, Option.some.injEq, Prod.mk.injEq] at h
  obtain ⟨more, hcolon, rfl, rfl⟩ := h
  obtain ⟨a, ha, hstart⟩ := exists_bound cs
  obtain ⟨b, hb, hstop⟩ := exists_bound more
  obtain ⟨c, hc, hstep⟩ := exists_sliceStep (optional (spaced index?) more).2
  refine ⟨a ++ ':' :: b ++ c, ?_, .slice hstart hstop hstep⟩
  rw [hcolon] at ha
  simp only [List.append_assoc, List.cons_append, ← hc, ← hb]
  exact ha

/-- A step, or else the end of the bracket, may stand behind a bound. -/
theorem endsBound_of_sliceStep {c : List Char} {o : Option Int} (h : SliceStep c o)
    (hrest : skipLayout rest = ']' :: more) : EndsBound (c ++ rest) := by
  rcases h with _ | hb
  · simp [EndsBound, hrest]
  · exact endsBound_colon _

/-- **A slice is taken whole**, and possibly the layout behind it. -/
theorem slice?_append {a b c : List Char} {start stop step : Option Int} (ha : Bound a start)
    (hb : Bound b stop) (hc : SliceStep c step) (hrest : skipLayout rest = ']' :: more) :
    ∃ r, slice? (a ++ ':' :: b ++ c ++ rest) = some (.arraySlice start stop step, r) ∧
      skipLayout r = ']' :: more := by
  obtain ⟨r₁, hr₁, hr₁'⟩ := bound_append ha (endsBound_colon (b ++ (c ++ rest)))
  rw [skipLayout_colon, or_self] at hr₁'
  obtain ⟨r₂, hr₂, hr₂'⟩ := bound_append hb (endsBound_of_sliceStep hc hrest)
  -- the layout in front of a missing step may be gone by now
  obtain ⟨rest', rfl, hrest'⟩ : ∃ rest', r₂ = c ++ rest' ∧ skipLayout rest' = ']' :: more := by
    rcases hc with _ | hc
    · refine ⟨r₂, rfl, ?_⟩
      rcases hr₂' with rfl | rfl <;> simpa using hrest
    · rw [List.cons_append, skipLayout_colon, or_self] at hr₂'
      exact ⟨rest, hr₂', hrest⟩
  obtain ⟨o, r₃, hr₃, rfl, hclose⟩ := sliceStep_append hc hrest'
  refine ⟨r₃, ?_, hclose⟩
  simp only [slice?, List.append_assoc, List.cons_append, hr₁, hr₁', after?_cons_self, hr₂, hr₃,
    Option.bind_eq_bind, Option.bind_some, Option.pure_def]

end PathAccess.Path
