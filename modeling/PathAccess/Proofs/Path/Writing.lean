import PathAccess.Path.Escape
import PathAccess.Proofs.Path.Recognition
import PathAccess.Proofs.Text.Trimming
/-!
# Writing names and literals into paths

A text is written with a backslash in front of each of its dots. Escaping
pairs backslashes with dots from left to right, so it finds exactly the
backslashes that were written, whatever backslashes the text has of its
own; only a text that ends in one must not stand in front of a dot. What
is left is the text with its dots hidden, which reading takes as part of
a name and restoring brings back.
-/

namespace PathAccess.Path

variable {c : Char} {cs xs ys rest : List Char} {name : String} {names : List String}

/-! ## Written and hidden dots -/

/-- A text with a backslash in front of every dot. -/
def writeDots (cs : List Char) : List Char :=
  cs.flatMap fun c => if c = '.' then ['\\', '.'] else [c]

/-- Names behind each other, each with a dot in front. -/
def writeNames (names : List String) : List Char :=
  names.flatMap fun n => '.' :: writeDots n.toList

/-- A text with the placeholder for every dot. -/
def hideDots (cs : List Char) : List Char :=
  cs.map fun c => if c = '.' then placeholder else c

/-- A name with its dots hidden. -/
def hide (name : String) : String :=
  String.ofList (hideDots name.toList)

/-- Names behind each other, of which all dots but those between them are
hidden. -/
def hideNames (names : List String) : List Char :=
  names.flatMap fun n => '.' :: hideDots n.toList

theorem writeDots_cons (c : Char) (cs : List Char) :
    writeDots (c :: cs) = (if c = '.' then ['\\', '.'] else [c]) ++ writeDots cs :=
  List.flatMap_cons

@[simp] theorem hideDots_cons (c : Char) (cs : List Char) :
    hideDots (c :: cs) = (if c = '.' then placeholder else c) :: hideDots cs :=
  List.map_cons

@[simp] theorem writeNames_cons (name : String) (names : List String) :
    writeNames (name :: names) = '.' :: writeDots name.toList ++ writeNames names :=
  List.flatMap_cons

@[simp] theorem hideNames_cons (name : String) (names : List String) :
    hideNames (name :: names) = '.' :: hideDots name.toList ++ hideNames names :=
  List.flatMap_cons

/-- Without a placeholder there is nothing to restore. -/
theorem restoreDots_eq_self (h : placeholder ∉ cs) : restoreDots cs = cs := by
  have hkept : ∀ c ∈ cs, (if c = placeholder then '.' else c) = id c := by
    intro c hc
    have hne : c ≠ placeholder := fun heq => h (heq ▸ hc)
    rw [if_neg hne, id]
  rw [restoreDots, List.map_congr_left hkept, List.map_id]

/-- **Restoring undoes hiding.** -/
theorem restoreDots_hideDots (h : placeholder ∉ cs) : restoreDots (hideDots cs) = cs := by
  induction cs with
  | nil => rfl
  | cons c cs ih =>
    obtain ⟨hc, hcs⟩ := not_or.1 (mt List.mem_cons.2 h)
    have ih := ih hcs
    simp only [restoreDots, hideDots, List.map_cons] at ih ⊢
    rw [ih]
    by_cases hdot : c = '.'
    · subst hdot
      rfl
    · rw [if_neg hdot, if_neg (Ne.symm hc)]

theorem restore_hide (h : placeholder ∉ name.toList) : restore (hide name) = name := by
  simp only [restore, hide, String.toList_ofList, restoreDots_hideDots h, String.ofList_toList]

/-- No dot is left, and nothing but the placeholder is new. -/
theorem mem_hideDots (h : c ∈ hideDots cs) : c = placeholder ∨ c ∈ cs ∧ c ≠ '.' := by
  obtain ⟨d, hd, rfl⟩ := List.mem_map.1 h
  by_cases hdot : d = '.'
  · exact .inl (if_pos hdot)
  · rw [if_neg hdot]
    exact .inr ⟨hd, hdot⟩

theorem hideDots_ne_nil (h : cs ≠ []) : hideDots cs ≠ [] :=
  mt List.map_eq_nil_iff.1 h

/-- Hiding makes no blank and loses none. -/
theorem isBlank_hideDot (c : Char) :
    Text.isBlank (if c = '.' then placeholder else c) = Text.isBlank c := by
  by_cases hdot : c = '.'
  · subst hdot
    decide
  · rw [if_neg hdot]

theorem trim_hideDots (cs : List Char) : Text.trim (hideDots cs) = hideDots (Text.trim cs) :=
  Text.trim_map isBlank_hideDot cs

/-- Nor does restoring. -/
theorem isBlank_restoreDot (c : Char) :
    Text.isBlank (if c = placeholder then '.' else c) = Text.isBlank c := by
  by_cases hc : c = placeholder
  · subst hc
    decide
  · rw [if_neg hc]

theorem trim_restoreDots (cs : List Char) :
    Text.trim (restoreDots cs) = restoreDots (Text.trim cs) :=
  Text.trim_map isBlank_restoreDot cs

/-- A written text does not begin with a dot. -/
theorem head?_writeDots_ne (cs : List Char) : (writeDots cs).head? ≠ some '.' := by
  cases cs with
  | nil => nofun
  | cons c cs =>
    rw [writeDots_cons]
    by_cases hdot : c = '.' <;> simp [hdot]

/-- It ends as the text does. -/
theorem getLast?_writeDots (cs : List Char) : (writeDots cs).getLast? = cs.getLast? := by
  induction cs with
  | nil => rfl
  | cons c cs ih =>
    rw [writeDots_cons, List.getLast?_append, ih]
    by_cases hdot : c = '.' <;> cases cs <;> simp [hdot, List.getLast?_cons]

theorem placeholder_not_mem_writeDots (h : placeholder ∉ cs) : placeholder ∉ writeDots cs := by
  simp only [writeDots, List.mem_flatMap, not_exists, not_and]
  intro c hc
  by_cases hdot : c = '.'
  · rw [if_pos hdot]
    decide
  · rw [if_neg hdot, List.mem_singleton]
    rintro rfl
    exact h hc

theorem placeholder_not_mem_writeNames (h : ∀ n ∈ names, placeholder ∉ n.toList) :
    placeholder ∉ writeNames names := by
  simp only [writeNames, List.mem_flatMap, not_exists, not_and]
  intro n hn hmem
  rcases List.mem_cons.1 hmem with hdot | hmem
  · exact absurd hdot (by decide)
  · exact placeholder_not_mem_writeDots (h n hn) hmem

/-! ## Escaping -/

theorem escapeDots_eq_nil : escapeDots cs = [] ↔ cs = [] := by
  fun_cases escapeDots cs <;> simp

/-- A character that is no backslash in front of a dot stays. -/
theorem escapeDots_cons (h : c = '\\' → cs.head? ≠ some '.') :
    escapeDots (c :: cs) = c :: escapeDots cs := by
  refine escapeDots.eq_3 c cs fun rest hc hcs => ?_
  subst hc hcs
  exact h rfl rfl

/-- **Two texts are escaped one by one**, unless the end of the first and
the beginning of the second make up a pair. -/
theorem escapeDots_append (h : xs.getLast? = some '\\' → ys.head? ≠ some '.') :
    escapeDots (xs ++ ys) = escapeDots xs ++ escapeDots ys := by
  fun_induction escapeDots xs with
  | case1 => rfl
  | case2 xs ih =>
    have hrest : xs.getLast? = some '\\' → ys.head? ≠ some '.' := fun hlast =>
      h (by simp [List.getLast?_cons, hlast])
    simp only [List.cons_append, escapeDots, ih hrest]
  | case3 c xs hpair ih =>
    have hrest : xs.getLast? = some '\\' → ys.head? ≠ some '.' := fun hlast =>
      h (by simp [List.getLast?_cons, hlast])
    have hc : c = '\\' → (xs ++ ys).head? ≠ some '.' := by
      rintro rfl
      cases xs with
      | nil => exact h rfl
      | cons d xs =>
        intro hd
        obtain rfl : d = '.' := by simpa using hd
        exact hpair xs rfl rfl
    rw [List.cons_append, escapeDots_cons hc, ih hrest, List.cons_append]

/-- Escaping makes no blank at the end of a text. -/
theorem getLast?_escapeDots (h : ∀ c ∈ cs.getLast?, Text.isBlank c = false) :
    ∀ c ∈ (escapeDots cs).getLast?, Text.isBlank c = false := by
  fun_induction escapeDots cs with
  | case1 => exact h
  | case2 cs ih =>
    have hcs := ih fun c hc => h c (by simp_all [List.getLast?_cons])
    rw [List.getLast?_cons]
    cases hlast : (escapeDots cs).getLast? with
    | none => simp; decide
    | some d => simpa using hcs d hlast
  | case3 d cs _ ih =>
    have hcs := ih fun c hc => h c (by simp_all [List.getLast?_cons])
    rw [List.getLast?_cons]
    cases hlast : (escapeDots cs).getLast? with
    | none =>
      obtain rfl : cs = [] := escapeDots_eq_nil.1 (List.getLast?_eq_none_iff.1 hlast)
      exact h
    | some c => simpa using hcs c hlast

/-- **A trimmed text is trimmed when it is escaped.** -/
theorem trim_escapeDots (h : Text.trim cs = cs) :
    Text.trim (escapeDots cs) = escapeDots cs := by
  obtain ⟨hstart, hend⟩ := Text.trim_eq_self_iff.1 h
  refine Text.trim_eq_self_iff.2 ⟨?_, getLast?_escapeDots hend⟩
  fun_cases escapeDots cs with
  | case1 => exact hstart
  | case2 cs => simp; decide
  | case3 c cs => exact hstart

/-- Without a backslash there is nothing to escape. -/
theorem escapeDots_eq_self (h : '\\' ∉ cs) : escapeDots cs = cs := by
  induction cs with
  | nil => exact escapeDots_nil
  | cons c cs ih =>
    obtain ⟨hc, hcs⟩ := not_or.1 (mt List.mem_cons.2 h)
    rw [escapeDots_cons fun heq => absurd heq.symm hc, ih hcs]

/-- **Escaping hides the dots of a written text.** -/
theorem escapeDots_writeDots (cs : List Char) : escapeDots (writeDots cs) = hideDots cs := by
  induction cs with
  | nil => exact escapeDots_nil
  | cons c cs ih =>
    rw [writeDots_cons, hideDots_cons]
    by_cases hdot : c = '.'
    · simp only [hdot, if_true, List.cons_append, List.nil_append, escapeDots, ih]
    · simp only [hdot, if_false, List.singleton_append]
      rw [escapeDots_cons fun _ => head?_writeDots_ne cs, ih]

/-- **Escaping hides the dots of written names**, and leaves those
between them. A name that ends in a backslash is the last one. -/
theorem escapeDots_writeNames (hback : ∀ n ∈ names.dropLast, n.toList.getLast? ≠ some '\\')
    (hrest : rest.head? ≠ some '.') :
    escapeDots (writeNames names ++ rest) = hideNames names ++ escapeDots rest := by
  induction names with
  | nil => rfl
  | cons n names ih =>
    have hnext : ('.' :: writeDots n.toList).getLast? = some '\\' →
        (writeNames names ++ rest).head? ≠ some '.' := by
      intro hlast
      rw [List.getLast?_cons, getLast?_writeDots] at hlast
      cases names with
      | nil => exact hrest
      | cons m names =>
        refine absurd ?_ (hback n (by simp))
        cases hn : n.toList.getLast? <;> rw [hn] at hlast
        · exact absurd hlast (by decide)
        · exact hlast
    have hmore : ∀ m ∈ names.dropLast, m.toList.getLast? ≠ some '\\' := fun m hm =>
      hback m (by cases names <;> simp_all)
    have hname : escapeDots ('.' :: writeDots n.toList) = '.' :: hideDots n.toList := by
      rw [escapeDots_cons fun heq => absurd heq (by decide), escapeDots_writeDots]
    rw [writeNames_cons, List.append_assoc, escapeDots_append hnext, ih hmore, hname,
      hideNames_cons, List.append_assoc]

/-- A text without the placeholder can be escaped. -/
theorem escape?_ofList (h : placeholder ∉ cs) :
    escape? (String.ofList cs) = some (String.ofList (escapeDots cs)) := by
  rw [escape?, String.toList_ofList, if_neg h]

theorem escape?_eq_some_iff {path escaped : String} :
    escape? path = some escaped ↔
      placeholder ∉ path.toList ∧ escaped = String.ofList (escapeDots path.toList) := by
  rw [escape?]
  split <;> simp_all [eq_comm]

/-! ## Reading names -/

open Grammar

/-- **A name that can be written behind a dot**: neither empty nor taken
for a star, and without the brackets, which cannot be escaped. -/
structure Writable (name : String) : Prop where
  ne_nil : name.toList ≠ []
  noOpening : '[' ∉ name.toList
  noClosing : ']' ∉ name.toList
  noStar : name.toList.head? ≠ some '*'
  noPlaceholder : placeholder ∉ name.toList

instance (name : String) : Decidable (Writable name) :=
  decidable_of_iff (name.toList ≠ [] ∧ '[' ∉ name.toList ∧ ']' ∉ name.toList ∧
      name.toList.head? ≠ some '*' ∧ placeholder ∉ name.toList)
    ⟨fun h => ⟨h.1, h.2.1, h.2.2.1, h.2.2.2.1, h.2.2.2.2⟩, fun h =>
      ⟨h.ne_nil, h.noOpening, h.noClosing, h.noStar, h.noPlaceholder⟩⟩

theorem head?_hideDots_ne_star (h : cs.head? ≠ some '*') : (hideDots cs).head? ≠ some '*' := by
  cases cs with
  | nil => exact h
  | cons c cs =>
    rw [hideDots_cons, List.head?_cons]
    by_cases hdot : c = '.'
    · rw [if_pos hdot]
      decide
    · rwa [if_neg hdot]

/-- With its dots hidden it is read as one name. -/
theorem Writable.member (h : Writable name) :
    Member (hideDots name.toList) (.property (hide name)) := by
  refine .name ⟨hideDots_ne_nil h.ne_nil, fun c hc => ?_⟩ (head?_hideDots_ne_star h.noStar)
  rcases mem_hideDots hc with rfl | ⟨hmem, hdot⟩
  · decide
  · have hopening : c ≠ '[' := fun heq => h.noOpening (heq ▸ hmem)
    have hclosing : c ≠ ']' := fun heq => h.noClosing (heq ▸ hmem)
    simp [isNameChar, hdot, hopening, hclosing]

/-- Hidden names are segments, one for each name. -/
theorem segments_hideNames (h : ∀ n ∈ names, Writable n) :
    Segments (hideNames names) (names.map fun n => .property (hide n)) := by
  induction names with
  | nil => exact .nil
  | cons n names ih =>
    obtain ⟨hn, hnames⟩ := List.forall_mem_cons.1 h
    rw [hideNames_cons]
    exact .cons (.dotted hn.member) (ih hnames)

theorem head?_hideNames (hne : names ≠ []) : (hideNames names).head? = some '.' := by
  obtain ⟨n, names, rfl⟩ := List.exists_cons_of_ne_nil hne
  rw [hideNames_cons]
  rfl

/-- The text of names is trimmed if that of the last one ends so. -/
theorem trim_hideNames (hlast : ∀ n ∈ names.getLast?, ∀ c ∈ n.toList.getLast?,
    Text.isBlank c = false) : Text.trim (hideNames names) = hideNames names := by
  rcases names.eq_nil_or_concat with rfl | ⟨front, n, rfl⟩
  · rfl
  · rw [List.concat_eq_append] at hlast ⊢
    refine Text.trim_eq_self_iff.2 ⟨fun c hc => ?_, fun c hc => ?_⟩
    · rw [head?_hideNames (by simp)] at hc
      cases hc
      decide
    · have hn := hlast n (by simp)
      rw [hideNames, List.flatMap_append, List.flatMap_singleton, List.getLast?_append,
        List.getLast?_cons, hideDots, List.getLast?_map] at hc
      cases hd : n.toList.getLast? with
      | none =>
        rw [hd] at hc
        cases hc
        decide
      | some d =>
        rw [hd] at hc
        cases hc
        exact (isBlank_hideDot d).trans (hn d hd)

/-- **Written names are read as these names**, with their dots hidden. -/
theorem read_escape_writeNames (hne : names ≠ []) (hnames : ∀ n ∈ names, Writable n)
    (hback : ∀ n ∈ names.dropLast, n.toList.getLast? ≠ some '\\')
    (hlast : ∀ n ∈ names.getLast?, ∀ c ∈ n.toList.getLast?, Text.isBlank c = false) :
    ∃ escaped, escape? (String.ofList (writeNames names)) = some escaped ∧
      read escaped = .ok (.root :: names.map fun n => .property (hide n)) := by
  have hescape : escapeDots (writeNames names ++ []) = hideNames names ++ [] :=
    escapeDots_writeNames hback nofun
  rw [List.append_nil, List.append_nil] at hescape
  refine ⟨String.ofList (hideNames names), ?_, read_eq_ok_iff.2 ?_⟩
  · rw [escape?_ofList (placeholder_not_mem_writeNames fun n hn => (hnames n hn).noPlaceholder),
      hescape]
  · have hhead := head?_hideNames hne
    rw [String.toList_ofList, trim_hideNames hlast]
    refine ⟨fun hnil => ?_, derives_iff.1 (.unrooted (.bare (segments_hideNames hnames)) ?_)⟩
    · rw [hnil] at hhead
      cases hhead
    · rw [hhead]
      decide

/-! ## Segments behind a path -/

section Appending

variable {es more : List Element}

theorem Grammar.Segments.append (h : Segments cs es) (hrest : Segments rest more) :
    Segments (cs ++ rest) (es ++ more) := by
  induction h with
  | nil => exact hrest
  | cons hs _ ih =>
    rw [List.append_assoc, List.append_assoc]
    exact .cons hs ih

theorem Grammar.Relative.append (h : Relative cs es) (hrest : Segments rest more) :
    Relative (cs ++ rest) (es ++ more) := by
  cases h with
  | bare hsegments => exact .bare (hsegments.append hrest)
  | named hname hsegments =>
    rw [List.append_assoc]
    exact .named hname (hsegments.append hrest)

/-- **A path may go on with segments**, and so may its elements. -/
theorem Grammar.Derives.append (h : Derives cs es) (hne : cs ≠ [])
    (hrest : Segments rest more) : Derives (cs ++ rest) (es ++ more) := by
  cases h with
  | rooted hrelative => exact .rooted (hrelative.append hrest)
  | unrooted hrelative hhead =>
    refine .unrooted (hrelative.append hrest) ?_
    rwa [List.head?_append, List.head?_eq_some_head hne, Option.some_or,
      ← List.head?_eq_some_head hne]

/-- Reading takes segments behind a trimmed path for themselves. -/
theorem read_append {path : String} (htrim : Text.trim path.toList = path.toList)
    (hread : read path = .ok (.root :: es)) (hrest : Segments rest more)
    (hlast : ∀ c ∈ rest.getLast?, Text.isBlank c = false) :
    read (String.ofList (path.toList ++ rest)) = .ok (.root :: (es ++ more)) := by
  obtain ⟨hne, hpath⟩ := read_eq_ok_iff.1 hread
  rw [htrim] at hne hpath
  have happend : Text.trim (path.toList ++ rest) = path.toList ++ rest := by
    obtain ⟨hstart, hend⟩ := Text.trim_eq_self_iff.1 htrim
    refine Text.trim_eq_self_iff.2 ⟨?_, fun c hc => ?_⟩
    · rwa [List.head?_append, List.head?_eq_some_head hne, Option.some_or,
        ← List.head?_eq_some_head hne]
    · rw [List.getLast?_append] at hc
      cases hr : rest.getLast? with
      | none =>
        rw [hr] at hc
        exact hend c hc
      | some d =>
        rw [hr] at hc
        exact hlast c (hr ▸ hc)
  rw [read_eq_ok_iff, String.toList_ofList, happend]
  exact ⟨by simp [hne], derives_iff.1 ((derives_iff.2 hpath).append hne hrest)⟩

end Appending

end PathAccess.Path
