import PathAccess.Proofs.Path.Contents
/-!
# Reading brackets

The contents of a bracket are tried in a fixed order, and the first that
fits is final. No order could lose a text of the grammar: a content is
told by its first character, except that slices and indexes may begin
alike. A slice is tried first, and it fits an index only if a colon
stands behind it, which in a list of indexes is never so.
-/

namespace PathAccess.Path

open Grammar

variable {c : Char} {cs t rest more : List Char} {e : Element}

/-! ## What is taken for a content is one -/

theorem filter?_sound (h : filter? cs = some (e, rest)) : ∃ t, cs = t ++ rest ∧ Body t e := by
  simp only [filter?, Option.bind_eq_bind, Option.bind_eq_some_iff, after?_eq_some_iff,
    Option.pure_def, Option.some.injEq, Prod.mk.injEq] at h
  obtain ⟨cs, rfl, ⟨text, rest⟩, henclosed, rfl, rfl⟩ := h
  obtain ⟨t, rfl, ht⟩ := reads_enclosed.sound henclosed
  obtain ⟨hbalanced⟩ := ht
  exact ⟨_, List.cons_append.symm, .filter hbalanced⟩

theorem script?_sound (h : script? cs = some (e, rest)) : ∃ t, cs = t ++ rest ∧ Body t e := by
  simp only [script?, Option.bind_eq_bind, Option.bind_eq_some_iff, Option.pure_def,
    Option.some.injEq, Prod.mk.injEq] at h
  obtain ⟨⟨text, rest⟩, henclosed, rfl, rfl⟩ := h
  obtain ⟨t, rfl, ht⟩ := reads_enclosed.sound henclosed
  obtain ⟨hbalanced⟩ := ht
  exact ⟨_, rfl, .script hbalanced⟩

theorem anyIndex?_sound (h : anyIndex? cs = some (e, rest)) :
    ∃ t, cs = t ++ rest ∧ Body t e := by
  simp only [anyIndex?, Option.bind_eq_bind, Option.bind_eq_some_iff, after?_eq_some_iff,
    Option.pure_def, Option.some.injEq, Prod.mk.injEq] at h
  obtain ⟨rest, rfl, rfl, rfl⟩ := h
  exact ⟨['*'], rfl, .anyIndex⟩

/-- One name is a property, and several are a list. -/
theorem body_of_names {n : String} {ns : List String} (h : CommaList QuotedName t (n :: ns)) :
    Body t (if ns.isEmpty then .property n else .propertyList (n :: ns)) := by
  rcases ns with _ | ⟨m, ns⟩
  · exact .name (commaList_singleton_iff.1 h)
  · exact .names h

/-- One index is a position, and several are a list. -/
theorem body_of_indexes {i : Int} {is : List Int} (h : CommaList Index t (i :: is)) :
    Body t (if is.isEmpty then .arrayIndex i else .arrayIndexList (i :: is)) := by
  rcases is with _ | ⟨j, is⟩
  · exact .index (commaList_singleton_iff.1 h)
  · exact .indexes h

theorem Grammar.QuotedName.begins_visible {n : String} (h : QuotedName t n) :
    Begins (Text.isLayout · = false) t :=
  h.begins.imp (by rintro c (rfl | rfl) <;> decide)

theorem Grammar.Index.begins_visible {i : Int} (h : Index t i) :
    Begins (Text.isLayout · = false) t :=
  h.begins.imp fun _ => isLayout_of_startsIndex

theorem names?_sound (h : names? cs = some (e, rest)) : ∃ t, cs = t ++ rest ∧ Body t e := by
  simp only [names?, Option.bind_eq_bind, Option.bind_eq_some_iff, Option.pure_def,
    Option.some.injEq, Prod.mk.injEq] at h
  obtain ⟨⟨⟨n, ns⟩, rest⟩, hlist, rfl, rfl⟩ := h
  obtain ⟨t, rfl, ht⟩ := reads_quotedName.commaList_sound QuotedName.begins_visible hlist
  exact ⟨t, rfl, body_of_names ht⟩

theorem indexes?_sound (h : indexes? cs = some (e, rest)) : ∃ t, cs = t ++ rest ∧ Body t e := by
  simp only [indexes?, Option.bind_eq_bind, Option.bind_eq_some_iff, Option.pure_def,
    Option.some.injEq, Prod.mk.injEq] at h
  obtain ⟨⟨⟨i, is⟩, rest⟩, hlist, rfl, rfl⟩ := h
  obtain ⟨t, rfl, ht⟩ := reads_index.commaList_sound Index.begins_visible hlist
  exact ⟨t, rfl, body_of_indexes ht⟩

/-- **What is taken for a content is one**, whichever choice fits. -/
theorem bracketBody?_sound (h : bracketBody? cs = some (e, rest)) :
    ∃ t, cs = t ++ rest ∧ Body t e := by
  simp only [bracketBody?, Option.orElse_eq_orElse, Option.orElse_eq_or, Option.or_eq_some_iff] at h
  rcases h with h | ⟨-, h | ⟨-, h | ⟨-, h | ⟨-, h | ⟨-, h⟩⟩⟩⟩⟩
  · exact filter?_sound h
  · exact script?_sound h
  · exact anyIndex?_sound h
  · exact names?_sound h
  · exact slice?_sound h
  · exact indexes?_sound h

/-! ## Every content is taken -/

/-- A content that is no filter, script or star is left to the last
three choices. -/
theorem bracketBody?_of_begins (h : Begins (fun c => c ≠ '?' ∧ c ≠ '(' ∧ c ≠ '*') t) :
    bracketBody? (t ++ rest) =
      (names? (t ++ rest) <|> slice? (t ++ rest) <|> indexes? (t ++ rest)) := by
  have hfilter : filter? (t ++ rest) = none := by
    simp [filter?, h.after?_eq_none fun hc => hc.1 rfl]
  have hscript : script? (t ++ rest) = none := by
    simp [script?, enclosed, h.after?_eq_none fun hc => hc.2.1 rfl]
  have hany : anyIndex? (t ++ rest) = none := by
    simp [anyIndex?, h.after?_eq_none fun hc => hc.2.2 rfl]
  simp [bracketBody?, hfilter, hscript, hany]

theorem names?_append {n : String} {ns : List String} (h : CommaList QuotedName t (n :: ns))
    (hrest : skipLayout rest = ']' :: more) :
    names? (t ++ rest) =
      some (if ns.isEmpty then .property n else .propertyList (n :: ns), rest) := by
  have hend : Stops (· == ',') (skipLayout rest) := by
    rw [hrest, stops_cons]
    decide
  have hlist := reads_quotedName.commaList_append QuotedName.begins_visible (fun _ _ => rfl) h
    (stops_nothing rest) hend
  simp [names?, hlist]

theorem indexes?_append {i : Int} {is : List Int} (h : CommaList Index t (i :: is))
    (hrest : skipLayout rest = ']' :: more) :
    indexes? (t ++ rest) =
      some (if is.isEmpty then .arrayIndex i else .arrayIndexList (i :: is), rest) := by
  have hend : Stops (· == ',') (skipLayout rest) := by
    rw [hrest, stops_cons]
    decide
  have hstop : Stops Char.isDigit rest := by
    refine stops_of_skipLayout (fun _ => isDigit_of_isLayout) ?_
    rw [hrest, stops_cons]
    decide
  have hclass : ∀ c, Text.isLayout c = true ∨ c = ',' → c.isDigit = false := by
    rintro c (hc | rfl)
    · exact isDigit_of_isLayout hc
    · decide
  have hlist := reads_index.commaList_append Index.begins_visible hclass h hstop hend
  simp [indexes?, hlist]

/-- What stands behind an index of a list, layout apart, is a comma or
the end of the bracket. -/
theorem begins_behind_index {is : List Int} (h : Repeated (BehindComma Index) t is)
    (hrest : skipLayout rest = ']' :: more) :
    Begins (fun c => c = ',' ∨ c = ']') (skipLayout (t ++ rest)) := by
  rcases h with _ | ⟨hbehind, -⟩
  · simp [hrest]
  · rw [List.append_assoc]
    exact (hbehind.begins_skipLayout _).imp fun _ => .inl

/-- **No slice fits a list of indexes**: the first of them may be its
first bound, but no colon is behind it. -/
theorem slice?_eq_none {is : List Int} (h : CommaList Index t is)
    (hrest : skipLayout rest = ']' :: more) : slice? (t ++ rest) = none := by
  obtain ⟨t₁, t₂, i, is', rfl, rfl, hi, hrep⟩ := exists_of_commaList h
  have hbehind := begins_behind_index hrep hrest
  have hends : EndsBound (t₂ ++ rest) := hbehind.imp fun _ hc => .inr hc
  have hcolon : Stops (· == ':') (skipLayout (t₂ ++ rest)) :=
    hbehind.stops (by rintro c (rfl | rfl) <;> decide)
  have hbound : Bound t₁ (some i) := by
    simpa using Bound.given layout_nil hi layout_nil
  obtain ⟨r, hr, hr'⟩ := bound_append hbound hends
  -- the colon is missing with the layout behind the bound or without it
  have hnone : after? ':' r = none := by
    refine after?_eq_none_iff.2 ?_
    rcases hr' with rfl | rfl
    · exact stops_char_of_skipLayout (by decide) hcolon
    · exact hcolon
  simp [slice?, List.append_assoc, hr, hnone]

/-- Layout in front of a content is not part of it, but for the first
bound of a slice. -/
theorem exists_visible_body (h : Body t e) :
    ∃ b t', t = b ++ t' ∧ Layout b ∧ Body t' e ∧ Begins (Text.isLayout · = false) t' := by
  -- a filter, a script, the star, one name, names, a slice, one index, indexes
  rcases h with ht | ht | _ | ht | ht | ⟨ha, hb, hc⟩ | ht | ht
  · exact ⟨[], _, rfl, layout_nil, .filter ht, begins_cons.2 (by decide)⟩
  · exact ⟨[], _, rfl, layout_nil, .script ht, begins_cons.2 (by decide)⟩
  · exact ⟨[], _, rfl, layout_nil, .anyIndex, begins_cons.2 (by decide)⟩
  · exact ⟨[], _, rfl, layout_nil, .name ht, ht.begins_visible⟩
  · obtain ⟨t₁, t₂, n, ns, rfl, -, hn, -⟩ := exists_of_commaList ht
    exact ⟨[], _, rfl, layout_nil, .names ht, hn.begins_visible.append t₂⟩
  · rename_i a b c start stop step
    -- only here may layout be taken for a part of the content
    rcases ha with _ | ⟨hbefore, hi, hbehind⟩
    · exact ⟨[], _, rfl, layout_nil, .slice .missing hb hc, begins_cons.2 (by decide)⟩
    · rename_i before t behind i
      refine ⟨before, t ++ behind ++ ':' :: b ++ c, by simp, hbefore, ?_, ?_⟩
      · exact .slice (by simpa using Bound.given layout_nil hi hbehind) hb hc
      · simpa using hi.begins_visible.append (behind ++ ':' :: (b ++ c))
  · exact ⟨[], _, rfl, layout_nil, .index ht, ht.begins_visible⟩
  · obtain ⟨t₁, t₂, i, is, rfl, -, hi, -⟩ := exists_of_commaList ht
    exact ⟨[], _, rfl, layout_nil, .indexes ht, hi.begins_visible.append t₂⟩

/-- A slice without layout in front begins with its first bound or with
a colon. -/
theorem begins_of_bound {a : List Char} {start : Option Int} (ha : Bound a start)
    (hvisible : Begins (Text.isLayout · = false) (a ++ ':' :: cs)) :
    Begins (fun c => startsIndex c = true ∨ c = ':') (a ++ ':' :: cs) := by
  rcases ha with _ | ⟨hbefore, hi, -⟩
  · exact begins_cons.2 (.inr rfl)
  · rename_i before t behind i
    rcases before with _ | ⟨c, before⟩
    · simp only [List.nil_append, List.append_assoc]
      exact (hi.begins.append _).imp fun _ => .inl
    · have hlayout := hbefore c (List.mem_cons_self ..)
      rw [List.cons_append, List.cons_append, List.cons_append, begins_cons, hlayout] at hvisible
      exact absurd hvisible.symm Bool.false_ne_true

/-- A content that begins so is left to slices and indexes. -/
theorem bracketBody?_of_startsIndex (h : Begins (fun c => startsIndex c = true ∨ c = ':') t) :
    bracketBody? (t ++ rest) = (slice? (t ++ rest) <|> indexes? (t ++ rest)) := by
  have hquote : quotedName? (t ++ rest) = none := by
    refine quotedName?_eq_none (h.imp ?_)
    rintro c hc
    constructor <;> (rintro rfl; revert hc; decide)
  have hnames : names? (t ++ rest) = none := by
    simp [names?, commaList, hquote]
  rw [bracketBody?_of_begins, hnames]
  · rfl
  · refine h.imp fun c hc => ⟨?_, ?_, ?_⟩ <;> (rintro rfl; revert hc; decide)

theorem bracketBody?_filter (h : Balanced t) (rest : List Char) :
    bracketBody? ('?' :: '(' :: t ++ [')'] ++ rest) =
      some (.filter (String.ofList (Text.trim t)), rest) := by
  have henclosed := reads_enclosed.complete (.mk h) (stops_nothing rest)
  have hfilter : filter? ('?' :: ('(' :: t ++ [')'] ++ rest)) =
      some (.filter (String.ofList (Text.trim t)), rest) := by
    rw [filter?, after?_cons_self, Option.bind_eq_bind, Option.bind_some, henclosed]
    rfl
  simp only [List.cons_append] at hfilter ⊢
  rw [bracketBody?, hfilter]
  rfl

theorem bracketBody?_script (h : Balanced t) (rest : List Char) :
    bracketBody? ('(' :: t ++ [')'] ++ rest) =
      some (.expression (String.ofList (Text.trim t)), rest) := by
  have henclosed := reads_enclosed.complete (.mk h) (stops_nothing rest)
  have hfilter : filter? ('(' :: t ++ [')'] ++ rest) = none := rfl
  rw [bracketBody?, hfilter, script?, henclosed]
  rfl

theorem bracketBody?_names {n : String} {ns : List String}
    (h : CommaList QuotedName t (n :: ns)) (hrest : skipLayout rest = ']' :: more) :
    bracketBody? (t ++ rest) =
      some (if ns.isEmpty then .property n else .propertyList (n :: ns), rest) := by
  obtain ⟨t₁, t₂, n', ns', rfl, -, hn, -⟩ := exists_of_commaList h
  have hbegin := hn.begins.append t₂
  rw [bracketBody?_of_begins (hbegin.imp (by rintro c (rfl | rfl) <;> decide)),
    names?_append h hrest]
  rfl

theorem bracketBody?_indexes {i : Int} {is : List Int} (h : CommaList Index t (i :: is))
    (hrest : skipLayout rest = ']' :: more) :
    bracketBody? (t ++ rest) =
      some (if is.isEmpty then .arrayIndex i else .arrayIndexList (i :: is), rest) := by
  obtain ⟨t₁, t₂, i', is', rfl, -, hi, -⟩ := exists_of_commaList h
  have hbegin := hi.begins.append t₂
  rw [bracketBody?_of_startsIndex (hbegin.imp fun _ => .inl), slice?_eq_none h hrest,
    indexes?_append h hrest]
  rfl

/-- **Every content is taken** up to the end of the bracket, possibly
with the layout behind it. -/
theorem bracketBody?_append (h : Body t e) (hvisible : Begins (Text.isLayout · = false) t)
    (hrest : skipLayout rest = ']' :: more) :
    ∃ r, bracketBody? (t ++ rest) = some (e, r) ∧ skipLayout r = ']' :: more := by
  rcases h with ht | ht | _ | ht | ht | ⟨ha, hb, hc⟩ | ht | ht
  · exact ⟨rest, bracketBody?_filter ht rest, hrest⟩
  · exact ⟨rest, bracketBody?_script ht rest, hrest⟩
  · exact ⟨rest, rfl, hrest⟩
  · exact ⟨rest, bracketBody?_names (.one ht) hrest, hrest⟩
  · exact ⟨rest, bracketBody?_names ht hrest, hrest⟩
  · rename_i a b c start stop step
    obtain ⟨r, hr, hclose⟩ := slice?_append ha hb hc hrest
    refine ⟨r, ?_, hclose⟩
    have hassoc : a ++ ':' :: b ++ c = a ++ ':' :: (b ++ c) := by simp
    rw [hassoc] at hvisible hr ⊢
    rw [bracketBody?_of_startsIndex (begins_of_bound ha hvisible), hr]
    rfl
  · exact ⟨rest, bracketBody?_indexes (.one ht) hrest, hrest⟩
  · exact ⟨rest, bracketBody?_indexes ht hrest, hrest⟩

/-! ## Brackets -/

/-- **Brackets are read as their grammar has it**, whatever stands
behind them. -/
theorem reads_bracket : Reads bracket? Bracket nothing where
  sound {cs e rest} h := by
    simp only [bracket?, Option.bind_eq_bind, Option.bind_eq_some_iff, after?_eq_some_iff,
      Option.pure_def, Option.some.injEq, Prod.mk.injEq] at h
    obtain ⟨cs, rfl, ⟨e, r⟩, hspaced, rest, rfl, rfl, rfl⟩ := h
    obtain ⟨r, hread, hclose⟩ := spaced_eq_some_iff.1 hspaced
    obtain ⟨before, hb, hcs⟩ := exists_skipLayout cs
    obtain ⟨t, ht, hbody⟩ := bracketBody?_sound hread
    obtain ⟨behind, hb', hr⟩ := exists_skipLayout r
    refine ⟨'[' :: before ++ t ++ behind ++ [']'], ?_, .mk hb hbody hb'⟩
    rw [hcs, ht, hr, hclose]
    simp
  complete {t e rest} h _ := by
    obtain ⟨hb, hbody, hb'⟩ := h
    rename_i before t behind
    -- layout in front of the bracket's content joins that of its first bound
    obtain ⟨b, t, rfl, hlayout, hbody, hvisible⟩ := exists_visible_body hbody
    have hrest : skipLayout (behind ++ ']' :: rest) = ']' :: rest :=
      skipLayout_append_begins hb' (begins_cons.2 (by decide))
    obtain ⟨r, hread, hclose⟩ := bracketBody?_append hbody hvisible hrest
    have hskip : skipLayout ((before ++ b) ++ (t ++ (behind ++ ']' :: rest))) =
        t ++ (behind ++ ']' :: rest) :=
      skipLayout_append_begins (hb.append hlayout) (hvisible.append _)
    have hspaced : spaced bracketBody? ((before ++ b) ++ (t ++ (behind ++ ']' :: rest))) =
        some (e, ']' :: rest) :=
      spaced_eq_some_iff.2 ⟨r, by rw [hskip, hread], hclose⟩
    have hassoc : '[' :: before ++ (b ++ t) ++ behind ++ [']'] ++ rest =
        '[' :: ((before ++ b) ++ (t ++ (behind ++ ']' :: rest))) := by simp
    simp only [hassoc, bracket?, after?_cons_self, hspaced, Option.bind_eq_bind,
      Option.bind_some, Option.pure_def]

end PathAccess.Path
