import Mathlib.Data.List.Infix
import PathAccess.Proofs.Path.Rendering
/-!
# Rendered paths are read back

Elements are rendered as a path in which every name stands in a bracket,
between single quotes. Reading it gives the same elements unless one of
two things happens. A name that holds a single quote ends there, and a
descent to any property is rendered as three dots and a star, which no
segment begins with.

That these are the only two is an induction on the segments that the
elements were read from: each of them derives its own rendering, and
where the rendering of all is derived, so is that of the segments behind
the first.
-/

namespace PathAccess.Path

open Grammar Element

variable {c : Char} {cs t rest rest' : List Char} {e : Element} {es more : List Element}

/-! ## What a quote in a name does -/

/-- Layout does not begin with a character that is none. -/
theorem Grammar.Layout.eq_nil (h : Layout cs) (heq : cs ++ rest = c :: rest')
    (hc : Text.isLayout c = false) : cs = [] := by
  rcases cs with _ | ⟨d, cs⟩
  · rfl
  · obtain ⟨rfl, -⟩ := List.cons.inj heq
    rw [h d List.mem_cons_self] at hc
    cases hc

/-- **A name that is found where it is rendered holds no single quote**:
the quote that opens it is that of the rendering. -/
theorem Grammar.QuotedName.eq_renderName {n : String} (h : QuotedName t n)
    (heq : t ++ rest = '\'' :: rest') : t = renderName n ∧ '\'' ∉ n.toList := by
  obtain ⟨-, hbody⟩ := h
  obtain ⟨rfl, -⟩ := List.cons.inj heq
  rw [renderName, String.toList_ofList]
  exact ⟨rfl, hbody⟩

/-- So no name of a rendered list that is read back holds one, by
induction on the list that is read. -/
theorem Grammar.CommaList.noQuote {names : List String} (h : CommaList QuotedName t names)
    (hcs : Layout cs)
    (heq : cs ++ (t ++ rest) = commaSeparated (names.map renderName) ++ rest') :
    ∀ n ∈ names, '\'' ∉ n.toList := by
  induction h generalizing cs rest with
  | @one t n hname =>
    have heq' : cs ++ (t ++ rest) = '\'' :: (n.toList ++ ['\''] ++ rest') := by
      simpa [commaSeparated, renderName] using heq
    obtain rfl := hcs.eq_nil heq' (by decide)
    simpa using (hname.eq_renderName heq').2
  | @cons t before behind more n ns hname hbefore hbehind hmore ih =>
    obtain ⟨m, ns, rfl⟩ : ∃ m ms, ns = m :: ms := by cases hmore <;> exact ⟨_, _, rfl⟩
    have heq' : cs ++ (t ++ (before ++ ',' :: (behind ++ (more ++ rest)))) =
        renderName n ++ ',' :: (commaSeparated ((m :: ns).map renderName) ++ rest') := by
      simpa [commaSeparated, List.intercalate_cons_cons] using heq
    obtain rfl := hcs.eq_nil heq' (by decide)
    obtain ⟨rfl, hquote⟩ := hname.eq_renderName heq'
    have hcomma : before ++ ',' :: (behind ++ (more ++ rest)) = _ := List.append_cancel_left heq'
    obtain rfl := hbefore.eq_nil hcomma (by decide)
    exact List.forall_mem_cons.2 ⟨hquote, ih hbehind (List.cons.inj hcomma).2⟩

/-- **A rendered bracket that is read back holds no single quote in a
name.** -/
theorem Grammar.Bracket.noQuote (h : Bracket t e) (heq : t ++ rest = e.renderChars ++ rest') :
    ∀ n ∈ e.names, '\'' ∉ n.toList := by
  obtain @⟨before, t, behind, e, hbefore, hbody, -⟩ := h
  cases hbody with
  | @name t n hname =>
    have hlist : before ++ (t ++ (behind ++ ']' :: rest)) =
        commaSeparated ([n].map renderName) ++ ']' :: rest' := by
      simpa [renderChars, commaSeparated] using heq
    exact (CommaList.one hname).noQuote hbefore hlist
  | @names t m n ns hnames =>
    have hlist : before ++ (t ++ (behind ++ ']' :: rest)) =
        commaSeparated ((m :: n :: ns).map renderName) ++ ']' :: rest' := by
      simpa [renderChars] using heq
    exact hnames.noQuote hbefore hlist
  | _ => exact fun _ hn => absurd hn List.not_mem_nil

/-! ## Segments -/

/-- **Elements that their rendering stands for.** -/
structure Renderable (es : List Element) : Prop where
  /-- No name holds the quote that names are rendered in. -/
  noQuote : ∀ e ∈ es, ∀ n ∈ e.names, '\'' ∉ n.toList
  /-- No descent looks for any property. -/
  noDescentToAny : ¬ [.recursiveDescent, .anyProperty] <:+: es

instance (es : List Element) : Decidable (Renderable es) :=
  decidable_of_iff ((∀ e ∈ es, ∀ n ∈ e.names, '\'' ∉ n.toList) ∧
      ¬ [.recursiveDescent, .anyProperty] <:+: es)
    ⟨fun h => ⟨h.1, h.2⟩, fun h => ⟨h.1, h.2⟩⟩

theorem renderable_nil : Renderable [] := by
  decide

/-- Only a descent asks something of the element behind it. -/
theorem renderable_cons (he : e ≠ .recursiveDescent) :
    Renderable (e :: es) ↔ (∀ n ∈ e.names, '\'' ∉ n.toList) ∧ Renderable es := by
  have hinfix : [.recursiveDescent, .anyProperty] <:+: e :: es ↔
      [.recursiveDescent, .anyProperty] <:+: es := by
    simp [List.infix_cons_iff, List.cons_prefix_cons, he.symm]
  constructor
  · rintro ⟨hquote, hdescent⟩
    obtain ⟨hq, hquote⟩ := List.forall_mem_cons.1 hquote
    exact ⟨hq, hquote, mt hinfix.2 hdescent⟩
  · rintro ⟨hq, hquote, hdescent⟩
    exact ⟨List.forall_mem_cons.2 ⟨hq, hquote⟩, mt hinfix.1 hdescent⟩

theorem renderable_descent_cons :
    Renderable (.recursiveDescent :: e :: es) ↔ e ≠ .anyProperty ∧ Renderable (e :: es) := by
  have hinfix : [.recursiveDescent, .anyProperty] <:+: .recursiveDescent :: e :: es ↔
      e = .anyProperty ∨ [.recursiveDescent, .anyProperty] <:+: e :: es := by
    rw [List.infix_cons_iff]
    simp [List.cons_prefix_cons, eq_comm]
  constructor
  · rintro ⟨hquote, hdescent⟩
    obtain ⟨hany, hdescent⟩ := not_or.1 (mt hinfix.2 hdescent)
    exact ⟨hany, (List.forall_mem_cons.1 hquote).2, hdescent⟩
  · rintro ⟨hany, hquote, hdescent⟩
    refine ⟨List.forall_mem_cons.2 ⟨by simp [names], hquote⟩, ?_⟩
    exact mt hinfix.1 (not_or.2 ⟨hany, hdescent⟩)

/-- What may stand behind a dot or a descent is neither the root nor a
descent. -/
theorem plain_of_member_or_bracket (h : Member t e ∨ Bracket t e) :
    e ≠ .root ∧ e ≠ .recursiveDescent := by
  rcases h with h | ⟨-, hbody, -⟩
  · cases h <;> exact ⟨nofun, nofun⟩
  · cases hbody <;> exact ⟨nofun, nofun⟩

/-- A segment and those behind it are renderable one by one. -/
theorem Grammar.Segment.renderable_append (h : Segment t es) :
    Renderable (es ++ more) ↔ Renderable es ∧ Renderable more := by
  have hone {t : List Char} {e : Element} (h : Member t e ∨ Bracket t e) (more : List Element) :
      Renderable (e :: more) ↔ (∀ n ∈ e.names, '\'' ∉ n.toList) ∧ Renderable more :=
    renderable_cons (plain_of_member_or_bracket h).2
  cases h with
  | dotted h => simp [hone (.inl h), renderable_nil]
  | bracket h => simp [hone (.inr h), renderable_nil]
  | descent h => simp [renderable_descent_cons, hone h, renderable_nil, and_assoc]

/-- **A renderable segment is rendered as a segment.** -/
theorem Grammar.Segment.render (h : Segment t es) (hes : Renderable es) :
    Segment (es.flatMap renderChars) es := by
  cases h with
  | @dotted t e h =>
    rw [List.flatMap_singleton]
    by_cases hany : e = .anyProperty
    · subst hany
      exact .dotted .any
    · exact .bracket (h.render hany (hes.noQuote e List.mem_cons_self))
  | @bracket t e h =>
    rw [List.flatMap_singleton]
    exact .bracket (h.render (hes.noQuote e List.mem_cons_self))
  | @descent t e h =>
    obtain ⟨hany, hes⟩ := renderable_descent_cons.1 hes
    have hquote := hes.noQuote e List.mem_cons_self
    have hbracket : Bracket e.renderChars e := h.elim (·.render hany hquote) (·.render hquote)
    simpa [renderChars] using Segment.descent (.inr hbracket)

/-! ## What reading a rendering finds first -/

/-- Where a bracket opens, the first element derived is in it. -/
theorem Grammar.Segments.exists_bracket (h : Segments cs (e :: more)) (hcs : Begins (· = '[') cs) :
    ∃ t rest, cs = t ++ rest ∧ Bracket t e := by
  generalize hout : e :: more = out at h
  cases h with
  | nil => cases hout
  | cons hsegment _ =>
    cases hsegment with
    | dotted => exact absurd (begins_cons.1 hcs) (by decide)
    | bracket hbracket =>
      obtain ⟨rfl, -⟩ := List.cons.inj hout
      exact ⟨_, _, rfl, hbracket⟩
    | descent => exact absurd (begins_cons.1 hcs) (by decide)

/-- Behind two dots, the first element derived is a descent and the
second is its target. -/
theorem Grammar.Segments.exists_target {d : Element}
    (h : Segments ('.' :: '.' :: cs) (d :: e :: more)) :
    ∃ t rest, cs = t ++ rest ∧ (Member t e ∨ Bracket t e) := by
  generalize hs : '.' :: '.' :: cs = s, hout : d :: e :: more = out at h
  cases h with
  | nil => cases hs
  | cons hsegment _ =>
    cases hsegment with
    | dotted hmember =>
      -- no member begins with the second dot
      obtain ⟨c, t, rfl, hc, -⟩ := hmember.begins.exists_cons
      obtain ⟨rfl, -⟩ : '.' = c ∧ _ := by simpa using hs
      exact absurd rfl hc
    | bracket hbracket =>
      obtain ⟨c, t, rfl, rfl⟩ := hbracket.begins.exists_cons
      cases hs
    | descent htarget =>
      obtain ⟨-, rfl, -⟩ : _ ∧ e = _ ∧ _ := by simpa using hout
      exact ⟨_, _, by simpa using hs, htarget⟩

/-- All that may stand behind a dot or a descent is rendered in a bracket,
but for the star. -/
theorem begins_renderChars (h : Member t e ∨ Bracket t e) (hany : e ≠ .anyProperty) :
    Begins (· = '[') e.renderChars := by
  rcases h with h | ⟨-, hbody, -⟩
  · cases h with
    | any => exact absurd rfl hany
    | name => exact begins_cons.2 rfl
  · cases hbody <;> exact begins_cons.2 rfl

/-- A target that is found where it is rendered is not the star, and its
names hold no single quote. -/
theorem noQuote_of_target (h : Member t e ∨ Bracket t e)
    (heq : e.renderChars ++ rest' = t ++ rest) :
    e ≠ .anyProperty ∧ ∀ n ∈ e.names, '\'' ∉ n.toList := by
  have hany : e ≠ .anyProperty := by
    rintro rfl
    have hdot : Begins (· ≠ '.') t :=
      h.elim (·.begins.imp fun _ hc => hc.1) (·.begins.imp (by rintro c rfl; decide))
    obtain ⟨c, t, rfl, hc⟩ := hdot.exists_cons
    exact hc (List.cons.inj heq).1.symm
  refine ⟨hany, ?_⟩
  rcases h with hmember | hbracket
  · obtain ⟨c, cs, hcs, rfl⟩ := (begins_renderChars (.inl hmember) hany).exists_cons
    obtain ⟨c, t, rfl, -, hc⟩ := hmember.begins.exists_cons
    rw [hcs] at heq
    exact absurd (List.cons.inj heq).1.symm hc
  · exact hbracket.noQuote heq.symm

/-- **A segment whose rendering is read back is renderable.** -/
theorem Grammar.Segment.renderable (h : Segment t es)
    (hread : Segments (es.flatMap renderChars ++ rest) (es ++ more)) : Renderable es := by
  -- one element, in a bracket of its own unless it is the star
  have hone {t : List Char} {e : Element} (h : Member t e ∨ Bracket t e)
      (hread : Segments (e.renderChars ++ rest) (e :: more)) : Renderable [e] := by
    refine (renderable_cons (plain_of_member_or_bracket h).2).2 ⟨?_, renderable_nil⟩
    by_cases hany : e = .anyProperty
    · subst hany
      exact fun _ hn => absurd hn List.not_mem_nil
    · obtain ⟨t', rest', heq, hbracket⟩ :=
        hread.exists_bracket ((begins_renderChars h hany).append rest)
      exact hbracket.noQuote heq.symm
  cases h with
  | dotted h => exact hone (.inl h) (by simpa using hread)
  | bracket h => exact hone (.inr h) (by simpa using hread)
  | descent h =>
    have hdots : renderChars .recursiveDescent = ['.', '.'] := rfl
    obtain ⟨t', rest', heq, htarget⟩ := Segments.exists_target (by simpa [hdots] using hread)
    obtain ⟨hany, hquote⟩ := noQuote_of_target htarget heq
    rw [renderable_descent_cons, renderable_cons (plain_of_member_or_bracket h).2]
    exact ⟨hany, hquote, renderable_nil⟩

/-! ## Cutting off the first segment -/

/-- What stands behind a segment is read as segments of its own. -/
theorem segments_append (h : Segment t es) (hstop : Stops isNameChar rest) :
    segments (t ++ rest) = (es ++ (segments rest).1, (segments rest).2) := by
  have hlt : rest.length < (t ++ rest).length := by
    have := h.begins.length_pos
    rw [List.length_append]
    omega
  rw [segments, many, reads_segment.complete h hstop]
  simp only [hlt, if_true, List.flatten_cons, segments]

theorem Grammar.Segments.of_append (h : Segment t es) (hstop : Stops isNameChar rest)
    (hread : Segments (t ++ rest) (es ++ more)) : Segments rest more := by
  have heq := (segments_append h hstop).symm.trans (segments_eq hread)
  obtain ⟨hmore, hnil⟩ := Prod.mk.inj heq
  obtain ⟨t', ht', hsegments⟩ := exists_segments rest
  rw [hnil, List.append_nil] at ht'
  rwa [← ht', List.append_cancel_left hmore] at hsegments

/-- No name goes on in the rendering of segments. -/
theorem Grammar.Segments.stops_render (h : Segments t es) :
    Stops isNameChar (es.flatMap renderChars) := by
  have hone {t : List Char} {e : Element} {es : List Element} (h : Member t e ∨ Bracket t e) :
      Stops isNameChar ((e :: es).flatMap renderChars) := by
    by_cases hany : e = .anyProperty
    · subst hany
      exact stops_cons.2 (by decide)
    · rw [List.flatMap_cons]
      exact (begins_renderChars h hany).stops_append (by rintro c rfl; decide)
  cases h with
  | nil => exact stops_nil
  | cons hsegment _ =>
    cases hsegment with
    | dotted h => exact hone (.inl h)
    | bracket h => exact hone (.inr h)
    | descent => exact stops_cons.2 (by decide)

/-- **Segments derive their rendering exactly when they are renderable**,
by induction on the segments. -/
theorem segments_render_iff (h : Segments t es) :
    Segments (es.flatMap renderChars) es ↔ Renderable es := by
  induction h with
  | nil => exact ⟨fun _ => renderable_nil, fun _ => .nil⟩
  | cons hsegment hmore ih =>
    rw [List.flatMap_append, hsegment.renderable_append]
    constructor
    · intro hread
      have hes := hsegment.renderable hread
      exact ⟨hes, ih.1 (.of_append (hsegment.render hes) hmore.stops_render hread)⟩
    · rintro ⟨hes, hes'⟩
      exact .cons (hsegment.render hes) (ih.2 hes')

/-! ## Paths -/

theorem Grammar.Derives.exists_relative (h : Derives cs es) : ∃ t, Relative t es := by
  cases h with
  | rooted hrelative => exact ⟨_, hrelative⟩
  | unrooted hrelative _ => exact ⟨_, hrelative⟩

/-- A first name needs no dot, so it may begin with a star; it is
rendered as any other. -/
theorem relative_render_iff (h : Relative t es) :
    Segments (es.flatMap renderChars) es ↔ Renderable es := by
  cases h with
  | bare hsegments => exact segments_render_iff hsegments
  | @named n t es hname hsegments =>
    have hbracket (hquote : '\'' ∉ n) : Segment _ [.property (String.ofList n)] :=
      .bracket (bracket_of_body (.name (quotedName_renderName (by simpa using hquote))))
    rw [List.flatMap_cons, renderable_cons (by nofun), ← segments_render_iff hsegments]
    constructor
    · intro hread
      obtain ⟨t', rest, heq, hfound⟩ := hread.exists_bracket (begins_cons.2 rfl)
      have hquote := hfound.noQuote heq.symm
      have hn : '\'' ∉ n := by simpa [names] using hquote
      exact ⟨hquote, .of_append (hbracket hn) hsegments.stops_render hread⟩
    · rintro ⟨hquote, hmore⟩
      exact .cons (hbracket (by simpa [names] using hquote)) hmore

theorem Grammar.Relative.stops_render (h : Relative t es) :
    Stops isNameChar (es.flatMap renderChars) := by
  cases h with
  | bare hsegments => exact hsegments.stops_render
  | named => exact stops_cons.2 (by decide)

/-- Behind the root sign no name is found in the rendering, so it
derives segments or nothing. -/
theorem derives_render_iff (h : Relative t es) :
    Derives ('$' :: es.flatMap renderChars) es ↔ Renderable es := by
  rw [← relative_render_iff h]
  refine ⟨fun hderives => ?_, fun hsegments => .rooted (.bare hsegments)⟩
  have hstop := h.stops_render
  generalize hcs : es.flatMap renderChars = cs at hderives hstop
  cases hderives with
  | rooted hrelative =>
    cases hrelative with
    | bare hsegments => exact hsegments
    | named hname _ =>
      obtain ⟨c, n, rfl⟩ := List.exists_cons_of_ne_nil hname.1
      exact absurd ((stops_cons.1 hstop).symm.trans (hname.2 c List.mem_cons_self)) (by decide)
  | unrooted _ hhead => exact absurd rfl hhead

/-- No rendering ends in a blank. -/
theorem getLast?_renderChars (e : Element) :
    ∀ c ∈ e.renderChars.getLast?, Text.isBlank c = false := by
  have hclose (cs : List Char) : ∀ c ∈ (cs ++ [']']).getLast?, Text.isBlank c = false := by
    rw [List.getLast?_concat]
    rintro c ⟨⟩
    decide
  cases e with
  | root | recursiveDescent | anyProperty | anyArrayIndex =>
    rintro c ⟨⟩
    decide
  | expression text => simpa [renderChars] using hclose ('[' :: '(' :: text.toList ++ [')'])
  | filter text => simpa [renderChars] using hclose ('[' :: '?' :: '(' :: text.toList ++ [')'])
  | _ => exact hclose _

theorem trim_renderAll (es : List Element) :
    Text.trim ('$' :: es.flatMap renderChars) = '$' :: es.flatMap renderChars := by
  refine Text.trim_eq_self_iff.2 ⟨by rintro c ⟨⟩; decide, fun c hc => ?_⟩
  have hall : '$' :: es.flatMap renderChars = (Element.root :: es).flatMap renderChars := rfl
  rw [hall, List.getLast?_flatMap] at hc
  obtain ⟨e, -, he⟩ := List.exists_of_findSome?_eq_some hc
  exact getLast?_renderChars e c he

/-- **Rendered paths are read back** as the elements that they were
rendered from, for every path that is read, unless a name holds a single
quote or a descent looks for any property; and then they never are. -/
theorem read_renderAll_iff {path : String} (h : read path = .ok es) :
    read (renderAll es) = .ok es ↔
      (∀ e ∈ es, ∀ n ∈ e.names, '\'' ∉ n.toList) ∧
        ¬ [.recursiveDescent, .anyProperty] <:+: es := by
  obtain ⟨es, rfl, hderives⟩ := elements_eq_iff.1 (read_eq_ok_iff.1 h).2
  obtain ⟨t, hrelative⟩ := hderives.exists_relative
  have hchars : (renderAll (.root :: es)).toList = '$' :: es.flatMap renderChars := by
    rw [renderAll, String.toList_ofList]
    rfl
  rw [read_eq_ok_iff, hchars, trim_renderAll, ← derives_iff, derives_render_iff hrelative]
  have hroot : Renderable (.root :: es) ↔ Renderable es := by
    rw [renderable_cons (by nofun)]
    simp [names]
  rw [← hroot]
  exact ⟨fun ⟨_, hes⟩ => ⟨hes.1, hes.2⟩, fun ⟨hquote, hdescent⟩ => ⟨nofun, hquote, hdescent⟩⟩

/-- A path with a bracket of every kind, in spellings of which none is
that of its rendering, is read back. -/
theorem read_renderAll_iff_everyBracket :
    ∃ es, read "a.b[ \"c d\" , 'e' ]..[+1, -0][ 1 :: ][ ( x) ]..f[?( @.g == ')' )]" = .ok es ∧
      String.ofList (es.flatMap renderChars) =
        "$['a']['b']['c d','e']..[1,0][1:][(x)]..['f'][?(@.g == ')')]" ∧
      read (renderAll es) = .ok es := by
  have hread : read "a.b[ \"c d\" , 'e' ]..[+1, -0][ 1 :: ][ ( x) ]..f[?( @.g == ')' )]" =
      .ok [.root, .property "a", .property "b", .propertyList ["c d", "e"], .recursiveDescent,
        .arrayIndexList [1, 0], .arraySlice (some 1) none none, .expression "x",
        .recursiveDescent, .property "f", .filter "@.g == ')'"] :=
    read_eq_ok_iff.2 (by decide +kernel)
  exact ⟨_, hread, by decide +kernel, (read_renderAll_iff hread).2 (by decide +kernel)⟩

/-- **The rendering of a path need not be read back.** A descent to any
property and a name with a single quote are rendered as texts that are
no paths, and a name that looks like the end of one and the beginning of
another is read back as two names. -/
theorem renderings_not_read_back :
    (read "$..*" = .ok [.root, .recursiveDescent, .anyProperty] ∧
      renderAll [.root, .recursiveDescent, .anyProperty] = "$...*" ∧
      read "$...*" = .error (.unread "$...*" "...*")) ∧
    (read "$.it's" = .ok [.root, .property "it's"] ∧
      renderAll [.root, .property "it's"] = "$['it's']" ∧
      read "$['it's']" = .error (.unread "$['it's']" "['it's']")) ∧
    read "$[\"a','b\"]" = .ok [.root, .property "a','b"] ∧
      renderAll [.root, .property "a','b"] = "$['a','b']" ∧
      read "$['a','b']" = .ok [.root, .propertyList ["a", "b"]] := by
  decide +kernel

end PathAccess.Path
