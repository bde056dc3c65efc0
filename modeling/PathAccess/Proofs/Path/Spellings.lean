import PathAccess.Proofs.Path.Recognition
import PathAccess.Proofs.Text.Trimming
/-!
# The bare, dotted and rooted spellings of a path

A path may begin with a bare name, with a dot, or with the root sign and
a dot. The last two always come to the same, since what stands behind the
root sign is read as if it were not there. The bare spelling agrees with
them where its first name may stand behind a dot as well. A name that
begins with a star may not: behind a dot the star stands for any
property, and the name ends with it.

All of this is settled in the grammar. A bare text derives its elements
by its first name alone, and a dotted one by the member behind its dot,
so the two are one question asked of a name and of a member.
-/

namespace PathAccess.Path

open Grammar

variable {c : Char} {cs t : List Char} {es : List Element} {p q : String}

/-! ## Two texts that are read alike -/

/-- There is something on the path, and it is no path. -/
def Unreadable (p : String) : Prop :=
  ∃ path rest, read p = .error (.unread path rest)

/-- **Two paths are read alike**: into the same elements, or neither is
readable. -/
def ReadAlike (p q : String) : Prop :=
  (∃ es, read p = .ok es ∧ read q = .ok es) ∨ (Unreadable p ∧ Unreadable q)

/-- Reading a text that is not empty is finding what it derives. -/
theorem read_root_iff (hne : Text.trim p.toList ≠ []) :
    read p = .ok (.root :: es) ↔ Derives (Text.trim p.toList) es := by
  rw [read_eq_ok_iff, and_iff_right hne, derives_iff]

/-- The root is always first. -/
theorem exists_root_of_read {out : List Element} (h : read p = .ok out) :
    Text.trim p.toList ≠ [] ∧ ∃ es, out = .root :: es ∧ Derives (Text.trim p.toList) es := by
  obtain ⟨hne, helements⟩ := read_eq_ok_iff.1 h
  exact ⟨hne, elements_eq_iff.1 helements⟩

/-- A text that is not empty and derives nothing is no path. -/
theorem unreadable_iff :
    Unreadable p ↔
      Text.trim p.toList ≠ [] ∧ ∀ es, ¬ Derives (Text.trim p.toList) es := by
  constructor
  · rintro ⟨path, rest, hread⟩
    have hne : Text.trim p.toList ≠ [] := fun hnil => by
      rw [read_eq_empty_iff.2 hnil] at hread
      cases hread
    refine ⟨hne, fun es hes => ?_⟩
    rw [(read_root_iff hne).2 hes] at hread
    cases hread
  · rintro ⟨hne, hnone⟩
    cases hread : read p with
    | ok out =>
      obtain ⟨-, es, -, hes⟩ := exists_root_of_read hread
      exact absurd hes (hnone es)
    | error e =>
      cases e with
      | empty => exact absurd (read_eq_empty_iff.1 hread) hne
      | unread path rest => exact ⟨path, rest, hread⟩

/-- Two paths are read alike if they derive the same elements. -/
theorem readAlike_iff (hp : Text.trim p.toList ≠ []) (hq : Text.trim q.toList ≠ []) :
    ReadAlike p q ↔
      ∀ es, Derives (Text.trim p.toList) es ↔ Derives (Text.trim q.toList) es := by
  constructor
  · rintro (⟨out, hread, hread'⟩ | ⟨hunread, hunread'⟩) es
    · obtain ⟨-, es', rfl, hes'⟩ := exists_root_of_read hread
      have hes'' := (read_root_iff hq).1 hread'
      constructor
      · intro h
        exact h.unique hes' ▸ hes''
      · intro h
        exact h.unique hes'' ▸ hes'
    · have hnone := (unreadable_iff.1 hunread).2 es
      have hnone' := (unreadable_iff.1 hunread').2 es
      exact iff_of_false hnone hnone'
  · intro h
    by_cases hsome : ∃ es, Derives (Text.trim p.toList) es
    · obtain ⟨es, hes⟩ := hsome
      exact .inl ⟨_, (read_root_iff hp).2 hes, (read_root_iff hq).2 ((h es).1 hes)⟩
    · have hnone : ∀ es, ¬ Derives (Text.trim p.toList) es := fun es hes => hsome ⟨es, hes⟩
      refine .inr ⟨unreadable_iff.2 ⟨hp, hnone⟩, unreadable_iff.2 ⟨hq, fun es hes => ?_⟩⟩
      exact hnone es ((h es).2 hes)

/-! ## What a dot and a root sign derive -/

/-- Behind a dot stands no first name. -/
theorem relative_dot_iff : Relative ('.' :: t) es ↔ Segments ('.' :: t) es := by
  constructor
  · intro h
    generalize hcs : '.' :: t = cs at h
    cases h with
    | bare hsegments => exact hsegments
    | @named n t' es' hname hsegments =>
      obtain ⟨c, n, rfl⟩ := List.exists_cons_of_ne_nil hname.1
      obtain ⟨rfl, -⟩ := List.cons.inj hcs
      exact absurd (hname.2 '.' List.mem_cons_self) (by decide)
  · exact .bare

theorem derives_dot_iff : Derives ('.' :: t) es ↔ Segments ('.' :: t) es := by
  rw [← relative_iff_derives]
  exact relative_dot_iff

/-- The root sign in front of a dot changes nothing. -/
theorem derives_root_dot_iff : Derives ('$' :: '.' :: t) es ↔ Derives ('.' :: t) es := by
  rw [derives_dot_iff, ← relative_iff_derives]
  exact relative_dot_iff

/-- **A dot derives a member** and the segments behind it, unless another
dot follows. -/
theorem segments_dot_iff (ht : t.head? ≠ some '.') :
    Segments ('.' :: t) es ↔
      ∃ m rest e more, t = m ++ rest ∧ Member m e ∧ Segments rest more ∧ es = e :: more := by
  constructor
  · intro h
    generalize hcs : '.' :: t = cs at h
    cases h with
    | nil => cases hcs
    | @cons s rest es more hsegment hrest =>
      cases hsegment with
      | @dotted m e hmember =>
        obtain ⟨-, rfl⟩ := List.cons.inj hcs
        exact ⟨m, rest, e, more, rfl, hmember, hrest, rfl⟩
      | bracket hbracket =>
        obtain ⟨c, s, rfl, rfl⟩ := hbracket.begins.exists_cons
        cases hcs
      | descent =>
        obtain ⟨-, rfl⟩ := List.cons.inj hcs
        exact absurd rfl ht
  · rintro ⟨m, rest, e, more, rfl, hmember, hrest, rfl⟩
    exact .cons (.dotted hmember) hrest

/-! ## What a bare text derives -/

/-- A text with a first name: it begins with none of the characters that
mean something else at the beginning. -/
def Bare (cs : List Char) : Prop :=
  Begins (fun c => Text.isBlank c = false ∧ c ≠ '$' ∧ c ≠ '.' ∧ c ≠ '[' ∧ c ≠ ']') cs

/-- **A bare text derives its first name** and the segments behind it. -/
theorem derives_bare_iff (ht : Bare t) :
    Derives t es ↔
      ∃ n rest more, t = n ++ rest ∧ Name n ∧ Segments rest more ∧
        es = .property (String.ofList n) :: more := by
  obtain ⟨c, t, rfl, -, hroot, hdot, hopen, -⟩ := ht.exists_cons
  have hhead : (c :: t).head? ≠ some '$' := fun h => hroot (Option.some.inj h)
  constructor
  · intro h
    generalize hcs : c :: t = cs at h hhead
    cases h with
    | rooted => exact absurd rfl hhead
    | unrooted hrelative =>
      cases hrelative with
      | bare hsegments =>
        -- segments begin with a dot or a bracket
        cases hsegments with
        | nil => cases hcs
        | cons hsegment =>
          obtain ⟨d, s, rfl, hd⟩ := hsegment.begins.exists_cons
          obtain ⟨rfl, -⟩ := List.cons.inj hcs
          exact absurd hd (not_or.2 ⟨hdot, hopen⟩)
      | named hname hsegments => exact ⟨_, _, _, rfl, hname, hsegments, rfl⟩
  · rintro ⟨n, rest, more, hcs, hname, hsegments, rfl⟩
    refine .unrooted ?_ hhead
    rw [hcs]
    exact .named hname hsegments

/-- Without a star in front, a first name may stand behind a dot as
well. -/
theorem derives_dot_bare_iff (ht : Bare t) (hstar : t.head? ≠ some '*') :
    Derives ('.' :: t) es ↔ Derives t es := by
  have hdot : t.head? ≠ some '.' := by
    obtain ⟨c, t, rfl, -, -, hdot, -⟩ := ht.exists_cons
    exact fun h => hdot (Option.some.inj h)
  rw [derives_dot_iff, segments_dot_iff hdot, derives_bare_iff ht]
  constructor
  · rintro ⟨m, rest, e, more, rfl, hmember, hrest, rfl⟩
    cases hmember with
    | any => exact absurd rfl hstar
    | name hname => exact ⟨m, rest, more, rfl, hname, hrest, rfl⟩
  · rintro ⟨n, rest, more, rfl, hname, hrest, rfl⟩
    refine ⟨n, rest, _, more, rfl, .name hname fun hhead => hstar ?_, hrest, rfl⟩
    rw [List.head?_append, hhead, Option.some_or]

/-- **Behind a dot a star stands by itself.** -/
theorem derives_dot_star_iff :
    Derives ('.' :: '*' :: t) es ↔ ∃ more, Segments t more ∧ es = .anyProperty :: more := by
  rw [derives_dot_iff, segments_dot_iff (by simp)]
  constructor
  · rintro ⟨m, rest, e, more, hcs, hmember, hrest, rfl⟩
    cases hmember with
    | any =>
      obtain ⟨-, rfl⟩ := List.cons.inj hcs
      exact ⟨more, hrest, rfl⟩
    | name hname hhead =>
      obtain ⟨c, m, rfl⟩ := List.exists_cons_of_ne_nil hname.1
      obtain ⟨rfl, -⟩ := List.cons.inj hcs
      exact absurd rfl hhead
  · rintro ⟨more, hrest, rfl⟩
    exact ⟨['*'], t, _, more, rfl, .any, hrest, rfl⟩

theorem bare_star : Bare ('*' :: t) :=
  begins_cons.2 (by decide)

/-- The star is a first name where segments follow. -/
theorem derives_star (h : Segments t es) :
    Derives ('*' :: t) (.property "*" :: es) := by
  refine (derives_bare_iff bare_star).2 ⟨['*'], t, es, rfl, ?_, h, rfl⟩
  exact ⟨List.cons_ne_nil _ _, List.forall_mem_singleton.2 (by decide)⟩

/-- **A star in front derives the same with a dot and without only where
it derives nothing.** -/
theorem derives_dot_star_iff_bare :
    (∀ es, Derives ('*' :: t) es ↔ Derives ('.' :: '*' :: t) es) ↔
      ∀ es, ¬ Derives ('*' :: t) es := by
  constructor
  · intro h es hes
    obtain ⟨n, rest, more, -, -, -, rfl⟩ := (derives_bare_iff bare_star).1 hes
    obtain ⟨more', -, heq⟩ := derives_dot_star_iff.1 ((h _).1 hes)
    cases heq
  · intro hnone es
    refine iff_of_false (hnone es) fun hdot => ?_
    obtain ⟨more, hmore, -⟩ := derives_dot_star_iff.1 hdot
    exact hnone _ (derives_star hmore)

/-- **What becomes of a first name with a star behind a dot.** The star
alone is any property there. The rest of a longer name is left over, for
it begins no segment. -/
theorem derives_dot_star_of_derives {n : String} (h : Derives ('*' :: t) (.property n :: es)) :
    (n = "*" → Derives ('.' :: '*' :: t) (.anyProperty :: es)) ∧
      (n ≠ "*" → ∀ es', ¬ Derives ('.' :: '*' :: t) es') := by
  obtain ⟨name, rest, more, hcs, hname, hrest, heq⟩ := (derives_bare_iff bare_star).1 h
  obtain ⟨hn, rfl⟩ := List.cons.inj heq
  obtain rfl := Element.property.inj hn
  obtain ⟨c, name, rfl⟩ := List.exists_cons_of_ne_nil hname.1
  obtain ⟨rfl, rfl⟩ := List.cons.inj hcs
  cases name with
  | nil => exact ⟨fun _ => derives_dot_star_iff.2 ⟨es, hrest, rfl⟩, fun hne => absurd rfl hne⟩
  | cons d name =>
    refine ⟨fun hstar => ?_, fun _ es' hdot => ?_⟩
    · have hlist := congrArg String.toList hstar
      rw [String.toList_ofList] at hlist
      cases hlist
    · obtain ⟨more, hmore, -⟩ := derives_dot_star_iff.1 hdot
      have hstops : isNameChar d = false := stops_cons.1 hmore.stops
      have hd : isNameChar d = true := hname.2 d (by simp)
      rw [hd] at hstops
      cases hstops

/-! ## The three spellings of a text -/

/-- A bare text is trimmed at its end only. -/
theorem Bare.trim_eq (h : Bare cs) : Text.trim cs = Text.dropEndWhile Text.isBlank cs := by
  obtain ⟨c, cs, rfl, hblank, -⟩ := h.exists_cons
  have hstart : (c :: cs).dropWhile Text.isBlank = c :: cs :=
    Text.dropWhile_eq_iff.2 fun d hd => by rwa [← Option.some.inj hd]
  rw [Text.trim, hstart]

/-- Trimming leaves its first character. -/
theorem Bare.exists_trim (h : Bare cs) :
    ∃ c rest rest', cs = c :: rest ∧ Text.trim cs = c :: rest' := by
  obtain ⟨c, rest, rfl, hblank, -⟩ := h.exists_cons
  have hkeep : ∀ d ∈ [c].getLast?, Text.isBlank d = false :=
    fun d hd => by rwa [← Option.some.inj hd]
  rw [h.trim_eq]
  exact ⟨c, rest, _, rfl, Text.dropEndWhile_append hkeep rest⟩

theorem Bare.head?_trim (h : Bare cs) : (Text.trim cs).head? = cs.head? := by
  obtain ⟨c, rest, rest', rfl, htrim⟩ := h.exists_trim
  rw [htrim, List.head?_cons, List.head?_cons]

theorem Bare.exists_trim_eq_star (h : Bare cs) (hstar : cs.head? = some '*') :
    ∃ rest, Text.trim cs = '*' :: rest := by
  obtain ⟨c, rest, rest', rfl, htrim⟩ := h.exists_trim
  obtain rfl := Option.some.inj hstar
  exact ⟨rest', htrim⟩

theorem Bare.trim_ne_nil (h : Bare cs) : Text.trim cs ≠ [] := by
  obtain ⟨c, rest, rest', rfl, htrim⟩ := h.exists_trim
  rw [htrim]
  exact List.cons_ne_nil _ _

theorem Bare.trim (h : Bare cs) : Bare (Text.trim cs) := by
  rw [Bare, Begins, h.head?_trim]
  exact h

theorem trim_dot_append (h : Bare p.toList) :
    Text.trim ("." ++ p).toList = '.' :: Text.trim p.toList := by
  rw [String.toList_append, h.trim_eq]
  exact @Text.trim_append_right ['.'] [] (by decide) (List.cons_ne_nil _ _)
    (List.forall_mem_nil _) _

theorem trim_root_dot_append (h : Bare p.toList) :
    Text.trim ("$." ++ p).toList = '$' :: '.' :: Text.trim p.toList := by
  rw [String.toList_append, h.trim_eq]
  exact @Text.trim_append_right ['$', '.'] [] (by decide) (List.cons_ne_nil _ _)
    (List.forall_mem_nil _) _

/-- With a dot in front the text is not empty. -/
theorem trim_dot_append_ne_nil (h : Bare p.toList) : Text.trim ("." ++ p).toList ≠ [] := by
  rw [trim_dot_append h]
  exact List.cons_ne_nil _ _

/-- **The dotted and the rooted spelling are one.** -/
theorem readAlike_dot_root (h : Bare p.toList) : ReadAlike ("." ++ p) ("$." ++ p) := by
  have hroot := trim_root_dot_append h
  have hne : Text.trim ("$." ++ p).toList ≠ [] := by
    rw [hroot]
    exact List.cons_ne_nil _ _
  refine (readAlike_iff (trim_dot_append_ne_nil h) hne).2 fun es => ?_
  rw [trim_dot_append h, hroot]
  exact derives_root_dot_iff.symm

/-- **The bare spelling is the same**, unless a star in front of it is
read as a name. -/
theorem readAlike_dot_iff (h : Bare p.toList) :
    ReadAlike p ("." ++ p) ↔ (p.toList.head? = some '*' → Unreadable p) := by
  rw [readAlike_iff h.trim_ne_nil (trim_dot_append_ne_nil h), trim_dot_append h]
  by_cases hstar : p.toList.head? = some '*'
  · obtain ⟨rest, htrim⟩ := h.exists_trim_eq_star hstar
    have hunread : Unreadable p ↔ ∀ es, ¬ Derives (Text.trim p.toList) es := by
      rw [unreadable_iff, and_iff_right h.trim_ne_nil]
    rw [forall_prop_of_true hstar, hunread, htrim]
    exact derives_dot_star_iff_bare
  · have hhead : (Text.trim p.toList).head? ≠ some '*' := by rwa [h.head?_trim]
    exact iff_of_true (fun es => (derives_dot_bare_iff h.trim hhead).symm) (absurd · hstar)

/-- **What is read in place of a first name with a star**, behind a
dot. -/
theorem read_dot_of_star {n : String} (h : Bare p.toList) (hstar : p.toList.head? = some '*')
    (hread : read p = .ok (.root :: .property n :: es)) :
    (n = "*" → read ("." ++ p) = .ok (.root :: .anyProperty :: es)) ∧
      (n ≠ "*" → Unreadable ("." ++ p)) := by
  obtain ⟨rest, htrim⟩ := h.exists_trim_eq_star hstar
  have hne := trim_dot_append_ne_nil h
  have hderives := (read_root_iff h.trim_ne_nil).1 hread
  rw [read_root_iff hne, unreadable_iff, and_iff_right hne, trim_dot_append h, htrim]
  rw [htrim] at hderives
  exact derives_dot_star_of_derives hderives

/-- **The bare, the dotted and the rooted spelling of a path.** Take a
text that begins with none of the signs that mean something at the
beginning of a path. With a dot in front and with the root sign and a dot
it is always read alike. The bare text is read like these two, unless it
begins with a star and is readable. Then it begins with a name: if the
star is all of that name, it is any property behind a dot, with the same
elements behind it, and if there is more of the name, no path at all. -/
theorem spellings_read_alike (p : String) (h : Bare p.toList) :
    ReadAlike ("." ++ p) ("$." ++ p) ∧
    (ReadAlike p ("." ++ p) ↔ (p.toList.head? = some '*' → Unreadable p)) ∧
    ∀ n es, p.toList.head? = some '*' → read p = .ok (.root :: .property n :: es) →
      (n = "*" → read ("." ++ p) = .ok (.root :: .anyProperty :: es)) ∧
      (n ≠ "*" → Unreadable ("." ++ p)) :=
  ⟨readAlike_dot_root h, readAlike_dot_iff h, fun _ _ => read_dot_of_star h⟩

/-- A path with blanks at its end and a star inside its first name is
read alike in all spellings. A first name of a star and a letter is none
behind a dot. -/
theorem spellings_read_alike_stars :
    (ReadAlike "a*[0] " ".a*[0] " ∧ ReadAlike ".a*[0] " "$.a*[0] ") ∧
      read "*a[0]" = .ok [.root, .property "*a", .arrayIndex 0] ∧ Unreadable ".*a[0]" := by
  have hplain : Bare "a*[0] ".toList := begins_cons.2 (by decide)
  have hstarred : Bare "*a[0]".toList := begins_cons.2 (by decide)
  obtain ⟨hrooted, hdotted, -⟩ := spellings_read_alike "a*[0] " hplain
  have hread : read "*a[0]" = .ok [.root, .property "*a", .arrayIndex 0] :=
    read_eq_ok_iff.2 (by decide +kernel)
  have hlonger := (spellings_read_alike "*a[0]" hstarred).2.2 _ _ rfl hread
  exact ⟨⟨hdotted.2 nofun, hrooted⟩, hread, hlonger.2 (by decide)⟩

/-- **A star in front parts the spellings**: a name that begins with one
is no path behind a dot. -/
theorem star_parts_spellings :
    Bare "*a".toList ∧ read "*a" = .ok [.root, .property "*a"] ∧
      read ".*a" = .error (.unread ".*a" "a") ∧ read "$.*a" = .error (.unread "$.*a" "a") ∧
      ¬ ReadAlike "*a" ".*a" := by
  have hname : read "*a" = .ok [.root, .property "*a"] := by decide +kernel
  have hdotted : read ".*a" = .error (.unread ".*a" "a") := by decide +kernel
  refine ⟨begins_cons.2 (by decide), hname, hdotted, by decide +kernel, ?_⟩
  rintro (⟨es, -, hes⟩ | ⟨⟨path, rest, hunread⟩, -⟩)
  · rw [hdotted] at hes
    cases hes
  · rw [hname] at hunread
    cases hunread

end PathAccess.Path
