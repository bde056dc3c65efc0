import PathAccess.Proofs.Path.Writing
/-!
# Escaping loses nothing

Escaping goes over a text from left to right, and the pairs of a backslash
and a dot that it replaces do not overlap. In a row of backslashes and
dots it might miss a pair, or bring a backslash and a dot together that
stood apart. It does neither (`not_infix_escapeDots`): whatever is taken
out leaves the placeholder in its place, so that a dot that stays has the
same character before it, or else the placeholder. The rest is read off
this. The text can be written out again, the dots that stay are those
without a backslash before them, and restoring drops the backslashes
before the others.
-/

namespace PathAccess.Path

variable {c : Char} {cs xs ys before behind : List Char} {path other escaped : String}

/-- The text with a backslash and a dot for every placeholder. -/
def unescapeDots (cs : List Char) : List Char :=
  cs.flatMap fun c => if c = placeholder then ['\\', '.'] else [c]

/-- The text without the backslashes that stand directly before a dot. -/
def dropBackslashes : List Char → List Char
  | [] => []
  | c :: cs =>
    if c = '\\' ∧ cs.head? = some '.' then dropBackslashes cs else c :: dropBackslashes cs

/-- A text parted at a dot that has no backslash directly before it. -/
structure BareDot (cs before behind : List Char) : Prop where
  eq : cs = before ++ '.' :: behind
  noBackslash : before.getLast? ≠ some '\\'

/-! ## Writing placeholders out -/

theorem unescapeDots_cons (c : Char) (cs : List Char) :
    unescapeDots (c :: cs) = (if c = placeholder then ['\\', '.'] else [c]) ++ unescapeDots cs :=
  List.flatMap_cons

theorem unescapeDots_append (xs ys : List Char) :
    unescapeDots (xs ++ ys) = unescapeDots xs ++ unescapeDots ys :=
  List.flatMap_append

theorem unescapeDots_eq_nil : unescapeDots cs = [] ↔ cs = [] := by
  cases cs with
  | nil => simp [unescapeDots]
  | cons c cs =>
    rw [unescapeDots_cons]
    split <;> simp

/-- A dot that is written out is the end of a pair. -/
theorem getLast?_unescapeDots (cs : List Char) :
    (unescapeDots cs).getLast? = cs.getLast?.map fun c => if c = placeholder then '.' else c := by
  induction cs with
  | nil => rfl
  | cons c cs ih =>
    rw [unescapeDots_cons, List.getLast?_append, ih, List.getLast?_cons]
    cases cs.getLast? with
    | none => by_cases hc : c = placeholder <;> simp [hc]
    | some d => simp

/-- **Of two beginnings of a text, the written one tells which it is.** -/
theorem eq_of_unescapeDots_eq (hx : xs <+: cs) (hy : ys <+: cs)
    (h : unescapeDots xs = unescapeDots ys) : xs = ys := by
  rcases List.prefix_or_prefix_of_prefix hx hy with ⟨more, rfl⟩ | ⟨more, rfl⟩
  · rw [unescapeDots_append] at h
    rw [unescapeDots_eq_nil.1 (List.self_eq_append_right.1 h), List.append_nil]
  · rw [unescapeDots_append] at h
    rw [unescapeDots_eq_nil.1 (List.self_eq_append_right.1 h.symm), List.append_nil]

/-! ## Pairs -/

/-- Escaping makes no dot at the head of a text. -/
theorem head?_of_head?_escapeDots : (escapeDots cs).head? = some '.' → cs.head? = some '.' := by
  fun_cases escapeDots cs with
  | case1 => exact id
  | case2 cs => exact fun h => absurd h (by simp; decide)
  | case3 c cs => exact id

/-- **No pair is left**: a dot behind a backslash would have been replaced
with it, and no dot moves behind another character. -/
theorem not_infix_escapeDots (cs : List Char) : ¬ ['\\', '.'] <:+: escapeDots cs := by
  fun_induction escapeDots cs with
  | case1 => decide
  | case2 cs ih =>
    have hplaceholder : '\\' ≠ placeholder := by decide
    rw [List.infix_cons_iff, List.cons_prefix_cons]
    exact not_or.2 ⟨fun h => hplaceholder h.1, ih⟩
  | case3 c cs hpair ih =>
    rw [List.infix_cons_iff, List.cons_prefix_cons]
    refine not_or.2 ⟨?_, ih⟩
    rintro ⟨rfl, behind, hbehind⟩
    have hdot : cs.head? = some '.' := head?_of_head?_escapeDots (by rw [← hbehind]; rfl)
    obtain ⟨rest, rfl⟩ := List.head?_eq_some_iff.1 hdot
    exact hpair rest rfl rfl

/-- **What was escaped can be written out again.** -/
theorem unescapeDots_escapeDots (h : placeholder ∉ cs) : unescapeDots (escapeDots cs) = cs := by
  fun_induction escapeDots cs with
  | case1 => rfl
  | case2 cs ih =>
    have hcs : placeholder ∉ cs := fun hmem => h (List.mem_cons_of_mem _ (List.mem_cons_of_mem _ hmem))
    rw [unescapeDots_cons, if_pos rfl, ih hcs]
    rfl
  | case3 c cs hpair ih =>
    obtain ⟨hc, hcs⟩ := not_or.1 (mt List.mem_cons.2 h)
    rw [unescapeDots_cons, if_neg (Ne.symm hc), ih hcs]
    rfl

/-- **Restoring what was escaped** drops a backslash for every pair. -/
theorem restoreDots_escapeDots (h : placeholder ∉ cs) :
    restoreDots (escapeDots cs) = dropBackslashes cs := by
  fun_induction escapeDots cs with
  | case1 => rfl
  | case2 cs ih =>
    have hcs : placeholder ∉ cs := fun hmem =>
      h (List.mem_cons_of_mem _ (List.mem_cons_of_mem _ hmem))
    calc restoreDots (placeholder :: escapeDots cs)
        = '.' :: restoreDots (escapeDots cs) := rfl
      _ = '.' :: dropBackslashes cs := by rw [ih hcs]
      _ = dropBackslashes ('\\' :: '.' :: cs) := by simp [dropBackslashes]
  | case3 c cs hpair ih =>
    obtain ⟨hc, hcs⟩ := not_or.1 (mt List.mem_cons.2 h)
    have hkept : ¬ (c = '\\' ∧ cs.head? = some '.') := by
      rintro ⟨rfl, hdot⟩
      obtain ⟨rest, rfl⟩ := List.head?_eq_some_iff.1 hdot
      exact hpair rest rfl rfl
    calc restoreDots (c :: escapeDots cs)
        = c :: restoreDots (escapeDots cs) := by simp [restoreDots, Ne.symm hc]
      _ = c :: dropBackslashes cs := by rw [ih hcs]
      _ = dropBackslashes (c :: cs) := by rw [dropBackslashes, if_neg hkept]

/-! ## Dots that part a text -/

/-- **A bare dot stays**, and the text is escaped on both sides of it. -/
theorem BareDot.escapeDots_eq (h : BareDot cs before behind) :
    escapeDots cs = escapeDots before ++ '.' :: escapeDots behind := by
  rw [h.eq, escapeDots_append fun hlast => absurd hlast h.noBackslash,
    escapeDots_cons fun heq => absurd heq (by decide)]

/-- **A dot of a text without pairs is a bare dot** of what the text is
written out to. -/
theorem bareDot_unescapeDots (hpair : ¬ ['\\', '.'] <:+: before ++ '.' :: behind) :
    BareDot (unescapeDots (before ++ '.' :: behind)) (unescapeDots before)
      (unescapeDots behind) where
  eq := by
    rw [unescapeDots_append, unescapeDots_cons, if_neg (by decide)]
    rfl
  noBackslash := by
    rw [getLast?_unescapeDots]
    intro hlast
    obtain ⟨c, hc, hend⟩ := Option.map_eq_some_iff.1 hlast
    have hbackslash : c = '\\' := by
      split at hend
      · exact absurd hend (by decide)
      · exact hend
    obtain ⟨front, rfl⟩ := List.getLast?_eq_some_iff.1 (hbackslash ▸ hc)
    exact hpair ⟨front, behind, by simp⟩

/-- So is a dot of an escaped text, in the text that was escaped. -/
theorem bareDot_of_escapeDots (h : placeholder ∉ cs)
    (hparts : escapeDots cs = before ++ '.' :: behind) :
    BareDot cs (unescapeDots before) (unescapeDots behind) := by
  have hpair := not_infix_escapeDots cs
  rw [hparts] at hpair
  have hdot := bareDot_unescapeDots hpair
  rwa [← hparts, unescapeDots_escapeDots h] at hdot

/-- **A bare dot is one dot of the escaped text**, and no other. -/
theorem BareDot.existsUnique_parts (h : BareDot cs before behind) (hcs : placeholder ∉ cs) :
    ∃! parts : List Char × List Char, escapeDots cs = parts.1 ++ '.' :: parts.2 ∧
      unescapeDots parts.1 = before ∧ unescapeDots parts.2 = behind := by
  have hbefore : placeholder ∉ before := fun hmem =>
    hcs (h.eq ▸ List.mem_append_left _ hmem)
  have hbehind : placeholder ∉ behind := fun hmem =>
    hcs (h.eq ▸ List.mem_append_right _ (List.mem_cons_of_mem _ hmem))
  refine ⟨(escapeDots before, escapeDots behind), ⟨h.escapeDots_eq,
    unescapeDots_escapeDots hbefore, unescapeDots_escapeDots hbehind⟩, ?_⟩
  rintro ⟨xs, ys⟩ ⟨hparts, hxs, -⟩
  have hfront : xs = escapeDots before :=
    eq_of_unescapeDots_eq ⟨_, hparts.symm⟩ ⟨_, h.escapeDots_eq.symm⟩
      (hxs.trans (unescapeDots_escapeDots hbefore).symm)
  rw [h.escapeDots_eq, hfront] at hparts
  have hback : escapeDots behind = ys := (List.cons.inj (List.append_cancel_left hparts)).2
  rw [hfront, hback]

/-! ## Whole paths -/

/-- **What a path is escaped to.** The escaped text holds no pair, and it
is the path again when its placeholders are written out. Its dots and the
bare dots of the path are the same: each of the former is one of the
latter, between what stands on its two sides, and each of the latter is
just one of the former. Restored, it is the path without the backslashes
before its dots. -/
structure Escapes (path escaped : String) : Prop where
  noPair : ¬ ['\\', '.'] <:+: escaped.toList
  unescape : unescapeDots escaped.toList = path.toList
  bareDot : ∀ before behind, escaped.toList = before ++ '.' :: behind →
    BareDot path.toList (unescapeDots before) (unescapeDots behind)
  existsUnique_dot : ∀ before behind, BareDot path.toList before behind →
    ∃! parts : List Char × List Char, escaped.toList = parts.1 ++ '.' :: parts.2 ∧
      unescapeDots parts.1 = before ∧ unescapeDots parts.2 = behind
  restore : restore escaped = String.ofList (dropBackslashes path.toList)

/-- **A path that can be escaped is escaped so.** -/
theorem escapes_of_escape? (h : escape? path = some escaped) : Escapes path escaped := by
  obtain ⟨hplaceholder, rfl⟩ := escape?_eq_some_iff.1 h
  constructor <;> simp only [restore, String.toList_ofList]
  case noPair => exact not_infix_escapeDots _
  case unescape => exact unescapeDots_escapeDots hplaceholder
  case bareDot => exact fun before behind => bareDot_of_escapeDots hplaceholder
  case existsUnique_dot => exact fun before behind h => h.existsUnique_parts hplaceholder
  case restore => rw [restoreDots_escapeDots hplaceholder]

/-- The placeholder is what no path may hold. -/
theorem escape?_eq_none_iff : escape? path = none ↔ placeholder ∈ path.toList := by
  rw [escape?, ite_eq_left_iff]
  exact ⟨fun h => by_contra fun hmem => absurd (h hmem) (by simp), fun h hmem => absurd h hmem⟩

/-- **Distinct paths are escaped to distinct texts.** -/
theorem escape?_inj (h : escape? path = some escaped) (h' : escape? other = some escaped) :
    path = other :=
  String.toList_inj.1
    ((escapes_of_escape? h).unescape.symm.trans (escapes_of_escape? h').unescape)

end PathAccess.Path
