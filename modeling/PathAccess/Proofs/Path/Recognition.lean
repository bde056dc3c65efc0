import PathAccess.Proofs.Path.Brackets
/-!
# The reader recognizes its grammar

Segments are told by the character they begin with, and no name runs on
into the next segment, because the dot and the brackets are no name
characters. So committing to the first choice that fits loses nothing:
the reader accepts exactly the texts that derive elements, and gives the
elements that they derive.
-/

namespace PathAccess.Path

open Grammar

variable {c : Char} {cs t rest : List Char} {e : Element} {es : List Element}

/-! ## Segments -/

theorem name?_eq_none (h : Stops isNameChar cs) : name? cs = none := by
  simp [name?, h.takeWhile_eq_nil]

theorem reads_member : Reads member? Member isNameChar where
  sound {cs e rest} h := by
    simp only [member?, Option.orElse_eq_orElse, Option.orElse_eq_or, Option.or_eq_some_iff,
      Option.map_eq_some_iff, Option.map_eq_none_iff, after?_eq_some_iff, after?_eq_none_iff,
      Prod.mk.injEq] at h
    rcases h with ⟨rest, rfl, rfl, rfl⟩ | ⟨hstar, ⟨n, rest⟩, hname, rfl, rfl⟩
    · exact ⟨['*'], rfl, .any⟩
    · obtain ⟨t, rfl, ht, rfl⟩ := reads_name.sound hname
      refine ⟨t, rfl, .name ht fun hhead => ?_⟩
      have := hstar '*' (by simp [List.head?_append, hhead])
      simp at this
  complete {t e rest} h hstop := by
    rcases h with _ | ⟨ht, hhead⟩
    · rfl
    · have hbegin : Begins (· ≠ '*') t := by
        rcases t with _ | ⟨c, t⟩
        · exact absurd rfl ht.1
        · simpa using hhead
      have hstar : after? '*' (t ++ rest) = none := hbegin.after?_eq_none fun hne => hne rfl
      have hname := reads_name.complete ⟨ht, rfl⟩ hstop
      simp [member?, hstar, hname]

theorem Grammar.Member.begins (h : Member t e) : Begins (fun c => c ≠ '.' ∧ c ≠ '[') t := by
  rcases h with _ | ⟨⟨hne, hname⟩, -⟩
  · exact begins_cons.2 (by decide)
  · refine (begins_of_forall hne hname).imp fun c hc => ⟨?_, ?_⟩
    · rintro rfl
      exact absurd hc (by decide)
    · rintro rfl
      exact absurd hc (by decide)

theorem Grammar.Bracket.begins (h : Bracket t e) : Begins (· = '[') t := by
  obtain ⟨-, -, -⟩ := h
  exact begins_cons.2 rfl

/-- The target of a descent. -/
theorem reads_target :
    Reads (fun cs => member? cs <|> bracket? cs) (fun t e => Member t e ∨ Bracket t e)
      isNameChar where
  sound {cs e rest} h := by
    simp only [Option.orElse_eq_orElse, Option.orElse_eq_or, Option.or_eq_some_iff] at h
    rcases h with h | ⟨-, h⟩
    · obtain ⟨t, hcs, ht⟩ := reads_member.sound h
      exact ⟨t, hcs, .inl ht⟩
    · obtain ⟨t, hcs, ht⟩ := reads_bracket.sound h
      exact ⟨t, hcs, .inr ht⟩
  complete {t e rest} h hstop := by
    rcases h with ht | ht
    · simp [reads_member.complete ht hstop]
    · have hmember : member? (t ++ rest) = none := by
        have hstar : after? '*' (t ++ rest) = none := ht.begins.after?_eq_none (by decide)
        have hname : name? (t ++ rest) = none :=
          name?_eq_none (ht.begins.stops_append (by rintro c rfl; decide))
        simp [member?, hstar, hname]
      simp [hmember, reads_bracket.complete ht (stops_nothing rest)]

theorem Grammar.Segment.begins (h : Segment t es) : Begins (fun c => c = '.' ∨ c = '[') t := by
  rcases h with _ | hbracket | _
  · exact begins_cons.2 (.inl rfl)
  · exact hbracket.begins.imp fun _ => .inr
  · exact begins_cons.2 (.inl rfl)

theorem descent?_eq_none_of_begins (h : Begins (· ≠ '.') t) :
    descent? ('.' :: t ++ rest) = none := by
  have hdot : after? '.' (t ++ rest) = none := h.after?_eq_none fun hne => hne rfl
  simp [descent?, hdot]

/-- **Segments are read as their grammar has them** where no name
character stands behind them. -/
theorem reads_segment : Reads segment? Segment isNameChar where
  sound {cs es rest} h := by
    simp only [segment?, Option.orElse_eq_orElse, Option.orElse_eq_or, Option.or_eq_some_iff] at h
    rcases h with h | ⟨-, h | ⟨-, h⟩⟩
    · simp only [descent?, Option.bind_eq_bind, Option.bind_eq_some_iff, after?_eq_some_iff,
        Option.pure_def, Option.some.injEq, Prod.mk.injEq] at h
      obtain ⟨_, rfl, _, rfl, ⟨e, rest⟩, htarget, rfl, rfl⟩ := h
      obtain ⟨t, rfl, ht⟩ := reads_target.sound htarget
      exact ⟨'.' :: '.' :: t, rfl, .descent ht⟩
    · simp only [dotted?, Option.bind_eq_bind, Option.bind_eq_some_iff, after?_eq_some_iff,
        Option.pure_def, Option.some.injEq, Prod.mk.injEq] at h
      obtain ⟨_, rfl, ⟨e, rest⟩, hmember, rfl, rfl⟩ := h
      obtain ⟨t, rfl, ht⟩ := reads_member.sound hmember
      exact ⟨'.' :: t, rfl, .dotted ht⟩
    · simp only [bracketed?, Option.bind_eq_bind, Option.bind_eq_some_iff, Option.pure_def,
        Option.some.injEq, Prod.mk.injEq] at h
      obtain ⟨⟨e, rest⟩, hbracket, rfl, rfl⟩ := h
      obtain ⟨t, rfl, ht⟩ := reads_bracket.sound hbracket
      exact ⟨t, rfl, .bracket ht⟩
  complete {t es rest} h hstop := by
    rcases h with ht | ht | ht
    · rename_i t e
      have hmember := reads_member.complete ht hstop
      have hdescent : descent? ('.' :: t ++ rest) = none :=
        descent?_eq_none_of_begins (ht.begins.imp fun _ hc => hc.1)
      have hdotted : dotted? ('.' :: t ++ rest) = some ([e], rest) := by
        simp [dotted?, hmember]
      rw [segment?, hdescent, hdotted]
      rfl
    · rename_i e
      have hdot : after? '.' (t ++ rest) = none := ht.begins.after?_eq_none (by decide)
      have hbracketed : bracketed? (t ++ rest) = some ([e], rest) := by
        simp [bracketed?, reads_bracket.complete ht (stops_nothing rest)]
      simp [segment?, descent?, dotted?, hdot, hbracketed]
    · rename_i t e
      have htarget := reads_target.complete ht hstop
      have hdescent : descent? ('.' :: '.' :: t ++ rest) =
          some ([.recursiveDescent, e], rest) := by
        simp only [descent?, List.cons_append, after?_cons_self, Option.bind_eq_bind,
          Option.bind_some, htarget, Option.pure_def]
      rw [segment?, hdescent]
      rfl

/-- Segments are a repetition of segments. -/
theorem segments_iff_exists_repeated :
    Segments t es ↔ ∃ parts, Repeated Segment t parts ∧ es = parts.flatten := by
  constructor
  · intro h
    induction h with
    | nil => exact ⟨[], .nil, rfl⟩
    | @cons t rest es more hsegment _ ih =>
      obtain ⟨parts, hrep, rfl⟩ := ih
      exact ⟨es :: parts, .cons hsegment hrep, rfl⟩
  · rintro ⟨parts, hrep, rfl⟩
    induction hrep with
    | nil => exact .nil
    | cons hsegment _ ih => exact .cons hsegment ih

theorem exists_segments (cs : List Char) :
    ∃ t, cs = t ++ (segments cs).2 ∧ Segments t (segments cs).1 := by
  obtain ⟨t, hcs, hrep⟩ := reads_segment.many_sound cs
  exact ⟨t, hcs, segments_iff_exists_repeated.2 ⟨_, hrep, rfl⟩⟩

/-- No name character begins segments. -/
theorem Grammar.Segments.stops (h : Segments t es) : Stops isNameChar t := by
  rcases h with _ | ⟨hsegment, -⟩
  · exact stops_nil
  · exact hsegment.begins.stops_append (by rintro c (rfl | rfl) <;> decide)

theorem segments_eq (h : Segments t es) : segments t = (es, []) := by
  obtain ⟨parts, hrep, rfl⟩ := segments_iff_exists_repeated.1 h
  have hbegin {t : List Char} {es : List Element} (h : Segment t es) :
      Begins (isNameChar · = false) t :=
    h.begins.imp (by rintro c (rfl | rfl) <;> decide)
  have hmany := reads_segment.many_append hbegin hrep stops_nil rfl
  rw [List.append_nil] at hmany
  simp [segments, hmany]

/-! ## Paths -/

/-- The elements behind the root sign, and the rest that no part fits. -/
def relative (cs : List Char) : List Element × List Char :=
  let (head, rest) := optional name? cs
  let (es, rest) := segments rest
  ((head.map .property).toList ++ es, rest)

/-- With the root sign or without, the root is first. -/
theorem elements_eq (cs : List Char) :
    elements cs =
      (.root :: (relative ((after? '$' cs).getD cs)).1,
        (relative ((after? '$' cs).getD cs)).2) :=
  rfl

/-- A first name is taken whole, and no name is taken where segments
begin. -/
theorem relative_eq_iff : relative cs = (es, []) ↔ Relative cs es := by
  constructor
  · intro h
    simp only [relative, optional] at h
    split at h
    · next n rest hname =>
      obtain ⟨t, rfl, ht, rfl⟩ := reads_name.sound hname
      obtain ⟨t', hrest, hsegments⟩ := exists_segments rest
      obtain ⟨rfl, hnil⟩ := Prod.mk.inj h
      rw [hnil, List.append_nil] at hrest
      subst hrest
      exact .named ht hsegments
    · obtain ⟨t, hcs, hsegments⟩ := exists_segments cs
      obtain ⟨rfl, hnil⟩ := Prod.mk.inj h
      rw [hnil, List.append_nil] at hcs
      subst hcs
      exact .bare hsegments
  · intro h
    rcases h with hsegments | ⟨hname, hsegments⟩
    -- segments begin with no name character, so greed takes no name here
    · simp [relative, optional, name?_eq_none hsegments.stops, segments_eq hsegments]
    · have hread := reads_name.complete ⟨hname, rfl⟩ hsegments.stops
      simp [relative, optional, hread, segments_eq hsegments]

/-- The root sign settles which of the two derivations there may be. -/
theorem relative_iff_derives : Relative ((after? '$' cs).getD cs) es ↔ Derives cs es := by
  rcases hroot : after? '$' cs with _ | rest
  · have hhead : cs.head? ≠ some '$' := fun h => by
      simpa using after?_eq_none_iff.1 hroot '$' h
    constructor
    · intro h
      exact .unrooted h hhead
    · rintro (h | ⟨h, -⟩)
      · exact absurd rfl hhead
      · exact h
  · obtain rfl := after?_eq_some_iff.1 hroot
    constructor
    · intro h
      exact .rooted h
    · rintro (h | ⟨-, h⟩)
      · exact h
      · exact absurd rfl h

/-- **The elements of a text are those that it derives**, behind the
root. -/
theorem elements_eq_iff {out : List Element} :
    elements cs = (out, []) ↔ ∃ es, out = .root :: es ∧ Derives cs es := by
  rw [elements_eq]
  constructor
  · intro h
    obtain ⟨rfl, hnil⟩ := Prod.mk.inj h
    exact ⟨_, rfl, relative_iff_derives.1 (relative_eq_iff.1 (Prod.ext rfl hnil))⟩
  · rintro ⟨es, rfl, h⟩
    rw [relative_eq_iff.2 (relative_iff_derives.2 h)]

theorem derives_iff : Derives cs es ↔ elements cs = (.root :: es, []) := by
  rw [elements_eq_iff]
  constructor
  · intro h
    exact ⟨es, rfl, h⟩
  · rintro ⟨es', heq, h⟩
    rwa [(List.cons.inj heq).2]

/-- So the grammar is decided by reading. -/
instance : Decidable (Derives cs es) :=
  decidable_of_iff _ derives_iff.symm

example : Derives "orders[ ?(@.id=='A)') ]..*".toList
    [.property "orders", .filter "@.id=='A)'", .recursiveDescent, .anyProperty] := by
  decide +kernel

/-- **A text derives one list of elements at most.** -/
theorem Grammar.Derives.unique {es' : List Element} (h : Derives cs es) (h' : Derives cs es') :
    es = es' := by
  have heq := (derives_iff.1 h).symm.trans (derives_iff.1 h')
  exact (List.cons.inj (Prod.mk.inj heq).1).2

/-- **The reader accepts exactly its grammar.** Only blanks are an empty
path, and any other text is read as the root and the elements that it
derives once the blanks at its ends are gone, if it derives any. -/
theorem read_recognizes (path : String) :
    (read path = .error .empty ↔ Text.trim path.toList = []) ∧
      ∀ out, read path = .ok out ↔
        Text.trim path.toList ≠ [] ∧
          ∃ es, out = .root :: es ∧ Derives (Text.trim path.toList) es := by
  refine ⟨read_eq_empty_iff, fun out => ?_⟩
  rw [read_eq_ok_iff, elements_eq_iff]

end PathAccess.Path
