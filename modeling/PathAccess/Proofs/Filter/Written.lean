import PathAccess.Proofs.Filter.Clause
/-!
# Filters that were written

A filter is written as the marker, the names with a dot in front of
each, the operator, and the literal between quotes, with blanks around
the operator. Dots inside the names and the literal are written with a
backslash. The literal may hold operators, parentheses, brackets and the
other quote: a name may not, so the first operator is the one written
and everything behind it is the literal's.
-/

-- a statement about a list of characters is decided by the list, also where one about all
-- characters can be
attribute [local instance (2000)] List.decidableBAll

namespace PathAccess.Filter

open PathAccess.Path

variable {c : Char} {cs xs ys t behind : List Char} {name : String} {names : List String}

/-! ## Texts in front of others -/

/-- A text without quotes and parentheses may stand in front of a
balanced one. -/
theorem balanced_append_plain (hcs : ∀ c ∈ cs, c ∉ ['\'', '"', '(', ')'])
    (ht : Grammar.Balanced t) : Grammar.Balanced (cs ++ t) := by
  induction cs with
  | nil => exact ht
  | cons c cs ih =>
    obtain ⟨hc, hcs⟩ := List.forall_mem_cons.1 hcs
    simp only [List.mem_cons, List.not_mem_nil, or_false, not_or] at hc
    exact .plain hc.1 hc.2.1 hc.2.2.1 hc.2.2.2 (ih hcs)

/-! ## Names in front of an operator -/

/-- The characters that a name in front of an operator may not hold. -/
def reserved : List Char :=
  ['(', ')', '\'', '"'] ++ operatorStarts ++ [placeholder]

/-- **A name that can be written in front of an operator**: a text
without blanks at its ends and without a reserved character. -/
structure FieldName (name : String) : Prop where
  ne_nil : name.toList ≠ []
  trimmed : Text.trim name.toList = name.toList
  noReserved : ∀ c ∈ name.toList, c ∉ reserved

instance (name : String) : Decidable (FieldName name) :=
  decidable_of_iff (name.toList ≠ [] ∧ Text.trim name.toList = name.toList ∧
      ∀ c ∈ name.toList, c ∉ reserved)
    ⟨fun h => ⟨h.1, h.2.1, h.2.2⟩, fun h => ⟨h.ne_nil, h.trimmed, h.noReserved⟩⟩

theorem FieldName.noPlaceholder (h : FieldName name) : placeholder ∉ name.toList :=
  fun hmem => h.noReserved _ hmem (by decide)

/-- A hidden name is read as the name. -/
theorem fieldNames_hideDots (h : FieldName name)
    (hbehind : ∀ c ∈ behind, Text.isBlank c = true) :
    fieldNames (hideDots name.toList ++ behind) = [name] := by
  have htrim : Text.trim (hideDots name.toList) = hideDots name.toList := by
    rw [trim_hideDots, h.trimmed]
  have hdot : '.' ∉ hideDots name.toList := by
    intro hmem
    rcases mem_hideDots hmem with heq | ⟨-, hne⟩
    · exact absurd heq (by decide)
    · exact hne rfl
  have hne : Text.trim (hideDots name.toList) ≠ [] := by
    rw [htrim]
    exact hideDots_ne_nil h.ne_nil
  rw [fieldNames_append_blanks hdot hbehind, fieldNames_eq_singleton hdot hne, htrim,
    restoreDots_hideDots h.noPlaceholder, String.ofList_toList]

/-- And so are those behind it, by induction on these. -/
theorem fieldNames_hideDots_append (h : FieldName name) (hnames : ∀ n ∈ names, FieldName n)
    (hbehind : ∀ c ∈ behind, Text.isBlank c = true) :
    fieldNames (hideDots name.toList ++ (hideNames names ++ behind)) = name :: names := by
  induction names generalizing name with
  | nil => exact fieldNames_hideDots h hbehind
  | cons n names ih =>
    obtain ⟨hn, hnames⟩ := List.forall_mem_cons.1 hnames
    have hname : fieldNames (hideDots name.toList ++ []) = [name] :=
      fieldNames_hideDots h nofun
    rw [List.append_nil] at hname
    rw [hideNames_cons, List.append_assoc, List.cons_append, fieldNames_append, hname,
      ih hn hnames, List.singleton_append]

/-- **Names are read as they are**, with their dots, in front of blanks. -/
theorem fieldNames_hideNames_append (hnames : ∀ n ∈ names, FieldName n)
    (hbehind : ∀ c ∈ behind, Text.isBlank c = true) :
    fieldNames (hideNames names ++ behind) = names := by
  cases names with
  | nil => exact fieldNames_eq_nil hbehind
  | cons name names =>
    obtain ⟨h, hnames⟩ := List.forall_mem_cons.1 hnames
    have hlead : fieldNames ([] ++ '.' :: (hideDots name.toList ++ (hideNames names ++ behind))) =
        name :: names := by
      rw [fieldNames_append, fieldNames_hideDots_append h hnames hbehind]
      rfl
    rwa [hideNames_cons, List.append_assoc, List.cons_append]

/-! ## Written filters -/

/-- **A filter that can be written**: the names of the field, of which
none but the last ends in a backslash, the operator and the blanks
around it, and the literal and its quote, which it does not hold. -/
structure Written where
  names : List String
  op : Comparison
  before : List Char
  behind : List Char
  quote : Char
  literal : String
  isFieldName : ∀ n ∈ names, FieldName n
  noBackslash : ∀ n ∈ names.dropLast, n.toList.getLast? ≠ some '\\'
  isBlank_before : ∀ c ∈ before, Text.isBlank c = true
  isBlank_behind : ∀ c ∈ behind, Text.isBlank c = true
  isQuote_quote : isQuote quote = true
  noQuote : quote ∉ literal.toList
  noPlaceholder : placeholder ∉ literal.toList

/-- A filter's text in its bracket. -/
def inBracket (cs : List Char) : List Char :=
  ['[', '?', '('] ++ cs ++ [')', ']']

namespace Written

variable (f : Written)

/-- The operator with the blanks around it. -/
def operator : List Char :=
  f.before ++ f.op.token.toList ++ f.behind

/-- A text between the quotes. -/
def quoted (cs : List Char) : List Char :=
  f.quote :: cs ++ [f.quote]

/-- The filter as it is written, without its parentheses. -/
def text : List Char :=
  '@' :: (writeNames f.names ++ (f.operator ++ f.quoted (writeDots f.literal.toList)))

/-- The filter with its dots hidden. -/
def hidden : List Char :=
  '@' :: (hideNames f.names ++ (f.operator ++ f.quoted (hideDots f.literal.toList)))

/-- The filter in its bracket, as it stands behind a path. -/
def bracket : String :=
  String.ofList (inBracket f.text)

/-- The clause that the filter stands for. -/
def clause : Clause :=
  ⟨f.names, f.op, f.literal, true⟩

/-! ## What a written filter holds -/

theorem quote_eq : f.quote = '\'' ∨ f.quote = '"' := by
  simpa [isQuote, or_comm] using f.isQuote_quote

theorem isBlank_quote : Text.isBlank f.quote = false := by
  rcases f.quote_eq with h | h <;> rw [h] <;> decide

theorem quote_ne (hc : c ∈ ['.', '\\', '=', placeholder]) : f.quote ≠ c := by
  revert c
  rcases f.quote_eq with h | h <;> rw [h] <;> decide

theorem head?_quoted (cs : List Char) : (f.quoted cs).head? = some f.quote :=
  rfl

theorem getLast?_quoted (cs : List Char) : (f.quoted cs).getLast? = some f.quote :=
  List.getLast?_concat

theorem trim_quoted (cs : List Char) : Text.trim (f.quoted cs) = f.quoted cs := by
  rw [Text.trim_eq_self_iff, head?_quoted, getLast?_quoted]
  simp [f.isBlank_quote]

theorem trim_hidden : Text.trim f.hidden = f.hidden := by
  have hlast : f.hidden.getLast? = some f.quote := by
    simp [hidden, List.getLast?_cons, List.getLast?_append, getLast?_quoted]
  rw [Text.trim_eq_self_iff, hlast]
  exact ⟨by simp [hidden]; decide, by simp [f.isBlank_quote]⟩

/-- The operator and its blanks hold none of the characters that mean
something to the other readers of a path. -/
theorem not_mem_operator (hc : c ∈ ['.', '\\', '\'', '"', '(', ')', placeholder]) :
    c ∉ f.operator := by
  have hplain : ∀ d ∈ ['.', '\\', '\'', '"', '(', ')', placeholder],
      Text.isBlank d = false ∧ ∀ op ∈ Comparison.all, d ∉ op.token.toList := by decide
  obtain ⟨hblank, htoken⟩ := hplain c hc
  simp only [operator, List.mem_append, not_or]
  refine ⟨⟨fun hmem => ?_, htoken f.op (by cases f.op <;> decide)⟩, fun hmem => ?_⟩
  · exact Bool.false_ne_true (hblank.symm.trans (f.isBlank_before c hmem))
  · exact Bool.false_ne_true (hblank.symm.trans (f.isBlank_behind c hmem))

/-- The names hold no reserved character, but for the placeholder that
hides their dots. -/
theorem not_mem_hideNames (hc : c ∈ reserved) (hne : c ≠ placeholder) :
    c ∉ hideNames f.names := by
  have hdot : c ≠ '.' := fun heq => absurd (heq ▸ hc) (by decide)
  simp only [hideNames, List.mem_flatMap, List.mem_cons, not_exists, not_and, not_or]
  refine fun n hn => ⟨hdot, fun hmem => ?_⟩
  rcases mem_hideDots hmem with h | ⟨h, -⟩
  · exact hne h
  · exact (f.isFieldName n hn).noReserved c h hc

/-! ## Escaping -/

theorem noPlaceholder_text : placeholder ∉ f.text := by
  have hnames : placeholder ∉ writeNames f.names :=
    placeholder_not_mem_writeNames fun n hn => (f.isFieldName n hn).noPlaceholder
  have hliteral := placeholder_not_mem_writeDots f.noPlaceholder
  have hoperator : placeholder ∉ f.operator := f.not_mem_operator (by decide)
  have hquote : placeholder ≠ f.quote := (f.quote_ne (by decide)).symm
  have hmarker : placeholder ≠ '@' := by decide
  simp [text, quoted, hnames, hliteral, hoperator, hquote, hmarker]

theorem noPlaceholder_inBracket : placeholder ∉ inBracket f.text := by
  have hopening : placeholder ∉ ['[', '?', '('] := by decide
  have hclosing : placeholder ∉ [')', ']'] := by decide
  simp only [inBracket, List.mem_append, hopening, hclosing, f.noPlaceholder_text, or_self,
    not_false_eq_true]

/-- The literal is escaped on its own between the quotes. -/
theorem escapeDots_quoted (cs : List Char) :
    escapeDots (f.quoted (writeDots cs)) = f.quoted (hideDots cs) := by
  have hback : f.quote ≠ '\\' := f.quote_ne (by decide)
  have hdot : [f.quote].head? ≠ some '.' := by
    simpa using f.quote_ne (by decide)
  have hclosing : escapeDots [f.quote] = [f.quote] :=
    escapeDots_eq_self (by simpa using hback.symm)
  rw [quoted, List.cons_append, escapeDots_cons fun heq => absurd heq hback,
    escapeDots_append fun _ => hdot, escapeDots_writeDots, hclosing]
  rfl

/-- **Escaping hides the dots of a written filter**, and no others. -/
theorem escapeDots_text : escapeDots f.text = f.hidden := by
  have hback : '\\' ∉ f.operator := f.not_mem_operator (by decide)
  have hquoted : (f.quoted (writeDots f.literal.toList)).head? ≠ some '.' := by
    simpa [head?_quoted] using f.quote_ne (by decide)
  have hoperator : (f.operator ++ f.quoted (writeDots f.literal.toList)).head? ≠ some '.' :=
    head?_append_ne (head?_ne_of_not_mem (f.not_mem_operator (by decide))) hquoted
  rw [text, hidden, escapeDots_cons fun heq => absurd heq (by decide),
    escapeDots_writeNames f.noBackslash hoperator, escapeDots_append fun _ => hquoted,
    escapeDots_eq_self hback, escapeDots_quoted]

/-- **Behind a path its bracket is escaped on its own.** -/
theorem escapeDots_append_inBracket (path : List Char) :
    escapeDots (path ++ inBracket f.text) = escapeDots path ++ inBracket f.hidden := by
  have hpath : escapeDots (path ++ inBracket f.text) =
      escapeDots path ++ escapeDots (inBracket f.text) := escapeDots_append fun _ => nofun
  have hclosing : escapeDots (['[', '?', '('] ++ f.text ++ [')', ']']) =
      escapeDots (['[', '?', '('] ++ f.text) ++ [')', ']'] := by
    rw [escapeDots_append fun _ => by decide, escapeDots_eq_self (by decide : '\\' ∉ [')', ']'])]
  have hopening : escapeDots (['[', '?', '('] ++ f.text) = ['[', '?', '('] ++ f.hidden := by
    rw [escapeDots_append fun h => absurd h (by decide), escapeDots_text,
      escapeDots_eq_self (by decide : '\\' ∉ ['[', '?', '('])]
  rw [hpath, inBracket, hclosing, hopening, inBracket]

/-! ## Reading the clause -/

/-- **A written filter stands for its clause**: the operator is the first
of its text, and the literal is what stands between the quotes. -/
theorem parse_hidden : Clause.parse (String.ofList f.hidden) = .ok f.clause := by
  have hleft : ∀ c ∈ hideNames f.names ++ f.before, c ∉ operatorStarts := by
    intro c hc hstarts
    rcases List.mem_append.1 hc with hc | hc
    · have hreserved : ∀ d ∈ operatorStarts, d ∈ reserved ∧ d ≠ placeholder := by decide
      exact f.not_mem_hideNames (hreserved c hstarts).1 (hreserved c hstarts).2 hc
    · exact not_mem_operatorStarts (f.isBlank_before c hc) hstarts
  have hright : (f.behind ++ f.quoted (hideDots f.literal.toList)).head? ≠ some '=' := by
    refine head?_append_ne (head?_ne_of_not_mem fun hmem => ?_) ?_
    · exact absurd (f.isBlank_behind _ hmem) (by decide)
    · simpa [head?_quoted] using f.quote_ne (by decide)
  have hbody : dropMarker (Text.trim f.hidden) = hideNames f.names ++ f.before ++
      (f.op.token.toList ++ (f.behind ++ f.quoted (hideDots f.literal.toList))) := by
    rw [trim_hidden]
    simp [hidden, operator, dropMarker]
  have hliteral : Text.trim (f.behind ++ f.quoted (hideDots f.literal.toList)) =
      f.quoted (hideDots f.literal.toList) := by
    rw [← List.append_nil (f.behind ++ _)]
    exact Text.trim_append (f.trim_quoted _) f.isBlank_behind nofun
  have hdrop : dropQuotes (f.quoted (hideDots f.literal.toList)) =
      (hideDots f.literal.toList, true) :=
    dropQuotes_quoted f.isQuote_quote f.isQuote_quote _
  have hnames : fieldNames (hideNames f.names ++ f.before) = f.names :=
    fieldNames_hideNames_append f.isFieldName f.isBlank_before
  simp only [Clause.parse, String.toList_ofList, Clause.ofChars?_of_body hbody hleft hright, hnames,
    hliteral, hdrop, restoreDots_hideDots f.noPlaceholder, String.ofList_toList, clause]

/-! ## Reading the bracket -/

open Grammar

/-- **A written filter is balanced**, whatever its literal holds. -/
theorem balanced_hidden : Balanced f.hidden := by
  have hquote : f.quote ∉ hideDots f.literal.toList := by
    intro hmem
    rcases mem_hideDots hmem with heq | ⟨hmem, -⟩
    · exact f.quote_ne (by decide) heq
    · exact f.noQuote hmem
  have hplain : ∀ c ∈ '@' :: (hideNames f.names ++ f.operator), c ∉ ['\'', '"', '(', ')'] := by
    intro c hc hmem
    have hmeaning : ∀ d ∈ ['\'', '"', '(', ')'], d ≠ '@' ∧ d ∈ reserved ∧ d ≠ placeholder ∧
        d ∈ ['.', '\\', '\'', '"', '(', ')', placeholder] := by decide
    obtain ⟨hmarker, hreserved, hne, hoperator⟩ := hmeaning c hmem
    rcases List.mem_cons.1 hc with rfl | hc
    · exact hmarker rfl
    · rcases List.mem_append.1 hc with hc | hc
      · exact f.not_mem_hideNames hreserved hne hc
      · exact f.not_mem_operator hoperator hc
  have hquoted : Balanced (f.quoted (hideDots f.literal.toList)) := .quoted f.quote_eq hquote .nil
  simpa [hidden] using balanced_append_plain hplain hquoted

/-- **Its bracket is read as the filter.** -/
theorem segments_inBracket :
    Segments (inBracket f.hidden) [.filter (String.ofList f.hidden)] := by
  have hbody := Body.filter f.balanced_hidden
  rw [trim_hidden] at hbody
  have hbracket := Grammar.Bracket.mk layout_nil hbody layout_nil
  simpa [inBracket] using Segments.cons (.bracket hbracket) .nil

theorem escape?_append_bracket {path : String} (hpath : placeholder ∉ path.toList) :
    escape? (path ++ f.bracket) =
      some (String.ofList (escapeDots path.toList ++ inBracket f.hidden)) := by
  have hwritten : (path ++ f.bracket).toList = path.toList ++ inBracket f.text := by
    rw [String.toList_append, bracket, String.toList_ofList]
  rw [escape?_eq_some_iff, hwritten, escapeDots_append_inBracket, List.mem_append]
  exact ⟨not_or.2 ⟨hpath, f.noPlaceholder_inBracket⟩, rfl⟩

/-- **Behind a path it is read as one more element.** -/
theorem read_append_bracket {path : String} {es : List Element}
    (htrim : Text.trim path.toList = path.toList)
    (hread : read (String.ofList (escapeDots path.toList)) = .ok (.root :: es)) :
    read (String.ofList (escapeDots path.toList ++ inBracket f.hidden)) =
      .ok (.root :: (es ++ [.filter (String.ofList f.hidden)])) := by
  have hescaped : Text.trim (String.ofList (escapeDots path.toList)).toList =
      (String.ofList (escapeDots path.toList)).toList := by
    rw [String.toList_ofList, trim_escapeDots htrim]
  have hlast : ∀ c ∈ (inBracket f.hidden).getLast?, Text.isBlank c = false := by
    rw [inBracket, List.getLast?_append]
    rintro c ⟨⟩
    decide
  have happend := read_append hescaped hread f.segments_inBracket hlast
  rwa [String.toList_ofList] at happend

end Written

end PathAccess.Filter
