import PathAccess.Proofs.Filter.Clause
/-!
# Spellings of a clause

The same clause may be spelled in many ways: with either marker, with
blanks around the whole, around each name and around the operator, and
with quotes of either kind at the ends of the literal, which need not be
of one kind. Every spelling is read as its clause. Between quotes a
literal may hold anything, operators and quotes included, since the
first operator of the text is the one in front of it; without quotes it
may begin neither with one nor with an equals sign, which would lengthen
the operator.
-/

-- a statement about a list of characters is decided by the list, also where one about all
-- characters can be
attribute [local instance (2000)] List.decidableBAll

namespace PathAccess.Filter

open PathAccess.Path

/-! ## Names -/

/-- The characters that a name may not hold where it stands by itself. -/
def separators : List Char :=
  ['.', placeholder] ++ operatorStarts

/-- **A name with the blanks around it**, as it may stand behind a dot. -/
structure SpacedName where
  before : List Char
  name : String
  behind : List Char
  isBlank_before : ∀ c ∈ before, Text.isBlank c = true
  isBlank_behind : ∀ c ∈ behind, Text.isBlank c = true
  ne_nil : name.toList ≠ []
  trimmed : Text.trim name.toList = name.toList
  noSeparator : ∀ c ∈ name.toList, c ∉ separators

namespace SpacedName

variable (n : SpacedName)

/-- The name as it is spelled. -/
def chars : List Char :=
  n.before ++ n.name.toList ++ n.behind

/-- Names as they are spelled, with a dot in front of each. -/
def charsOfAll (names : List SpacedName) : List Char :=
  names.flatMap fun n => '.' :: n.chars

theorem not_mem_chars {c : Char} (hblank : Text.isBlank c = false) (hc : c ∈ separators) :
    c ∉ n.chars := by
  have hbefore : c ∉ n.before := fun hmem =>
    Bool.false_ne_true (hblank.symm.trans (n.isBlank_before c hmem))
  have hbehind : c ∉ n.behind := fun hmem =>
    Bool.false_ne_true (hblank.symm.trans (n.isBlank_behind c hmem))
  have hname : c ∉ n.name.toList := fun hmem => n.noSeparator c hmem hc
  simp only [chars, List.mem_append, hbefore, hname, hbehind, or_self, not_false_eq_true]

theorem noDot : '.' ∉ n.chars :=
  n.not_mem_chars (by decide) (by decide)

/-- The blanks around a name are dropped. -/
theorem fieldNames_chars : fieldNames n.chars = [n.name] := by
  have htrim : Text.trim n.chars = n.name.toList :=
    Text.trim_append n.trimmed n.isBlank_before n.isBlank_behind
  have hplaceholder : placeholder ∉ n.name.toList := fun hmem =>
    n.noSeparator _ hmem (by decide)
  have hrestore : restoreDots n.name.toList = n.name.toList := restoreDots_eq_self hplaceholder
  rw [fieldNames_eq_singleton n.noDot (htrim ▸ n.ne_nil), htrim, hrestore, String.ofList_toList]

/-- **Names are read one by one behind a text without dots**, by induction
on the names: what a dot follows is the text in front of the next one. -/
theorem fieldNames_append_charsOfAll {front behind : List Char} (hfront : '.' ∉ front)
    (hbehind : ∀ c ∈ behind, Text.isBlank c = true) (names : List SpacedName) :
    fieldNames (front ++ charsOfAll names ++ behind) = fieldNames front ++ names.map name := by
  induction names generalizing front with
  | nil => simpa [charsOfAll] using fieldNames_append_blanks hfront hbehind
  | cons n names ih =>
    calc fieldNames (front ++ charsOfAll (n :: names) ++ behind)
      _ = fieldNames (front ++ '.' :: (n.chars ++ charsOfAll names ++ behind)) := by
          simp [charsOfAll]
      _ = fieldNames front ++ (fieldNames n.chars ++ names.map name) := by
          rw [fieldNames_append, ih n.noDot]
      _ = fieldNames front ++ (n :: names).map name := by
          rw [fieldNames_chars, List.map_cons, List.singleton_append]

end SpacedName

/-! ## Literals -/

/-- **A literal as it may be written**: any text between two quotes, or a
text by itself, which blanks and quotes would be taken from and to which
an equals sign in front would be lost. -/
inductive SpelledLiteral where
  | quoted (opening closing : Char) (literal : String)
      (isQuote_opening : isQuote opening = true) (isQuote_closing : isQuote closing = true)
      (noPlaceholder : placeholder ∉ literal.toList)
  | bare (literal : String) (trimmed : Text.trim literal.toList = literal.toList)
      (noQuote_head : ∀ c ∈ literal.toList.head?, isQuote c = false)
      (noQuote_last : ∀ c ∈ literal.toList.getLast?, isQuote c = false)
      (noEquals : literal.toList.head? ≠ some '=') (noPlaceholder : placeholder ∉ literal.toList)

namespace SpelledLiteral

/-- The literal without its quotes. -/
def literal : SpelledLiteral → String
  | quoted _ _ literal _ _ _ => literal
  | bare literal _ _ _ _ _ => literal

/-- Whether it stands between quotes. -/
def isQuoted : SpelledLiteral → Bool
  | quoted .. => true
  | bare .. => false

/-- The literal as it is spelled. -/
def chars : SpelledLiteral → List Char
  | quoted opening closing literal _ _ _ => opening :: literal.toList ++ [closing]
  | bare literal _ _ _ _ _ => literal.toList

variable (l : SpelledLiteral)

/-- A quote is neither a blank nor an equals sign. -/
theorem isBlank_of_isQuote {c : Char} (h : isQuote c = true) :
    Text.isBlank c = false ∧ c ≠ '=' := by
  simp only [isQuote, Bool.or_eq_true, beq_iff_eq] at h
  rcases h with rfl | rfl <;> decide

theorem trim_chars : Text.trim l.chars = l.chars := by
  cases l with
  | quoted opening closing literal hopening hclosing _ =>
    rw [chars, Text.trim_eq_self_iff, List.getLast?_concat]
    constructor
    · rintro c ⟨⟩
      exact (isBlank_of_isQuote hopening).1
    · rintro c ⟨⟩
      exact (isBlank_of_isQuote hclosing).1
  | bare literal htrim _ _ _ _ => exact htrim

theorem head?_chars_ne : l.chars.head? ≠ some '=' := by
  cases l with
  | quoted opening closing literal hopening _ _ =>
    rintro ⟨⟩
    exact (isBlank_of_isQuote hopening).2 rfl
  | bare literal _ _ _ hequals _ => exact hequals

/-- **The quotes are told from the literal.** -/
theorem dropQuotes_chars : dropQuotes l.chars = (l.literal.toList, l.isQuoted) := by
  cases l with
  | quoted opening closing literal hopening hclosing _ =>
    exact dropQuotes_quoted hopening hclosing literal.toList
  | bare literal _ hhead hlast _ _ => exact dropQuotes_bare hhead hlast

theorem noPlaceholder : placeholder ∉ l.literal.toList := by
  cases l <;> assumption

end SpelledLiteral

/-! ## Clauses -/

/-- **A spelling of a clause**: a marker and the names with a dot in front
of each, the operator, and the literal, with blanks around the parts. -/
structure Spelling where
  lead : List Char
  marker : Char
  gap : List Char
  names : List SpacedName
  before : List Char
  op : Comparison
  behind : List Char
  literal : SpelledLiteral
  trail : List Char
  isMarker : marker = '@' ∨ marker = '*'
  isBlank_lead : ∀ c ∈ lead, Text.isBlank c = true
  isBlank_gap : ∀ c ∈ gap, Text.isBlank c = true
  isBlank_before : ∀ c ∈ before, Text.isBlank c = true
  isBlank_behind : ∀ c ∈ behind, Text.isBlank c = true
  isBlank_trail : ∀ c ∈ trail, Text.isBlank c = true

namespace Spelling

variable (s : Spelling)

/-- The text in front of the operator, without the marker. -/
def field : List Char :=
  s.gap ++ SpacedName.charsOfAll s.names ++ s.before

/-- The text behind the operator. -/
def tail : List Char :=
  s.behind ++ s.literal.chars ++ s.trail

/-- The text that is spelled. -/
def text : String :=
  String.ofList (s.lead ++ s.marker :: (s.field ++ s.op.token.toList) ++ s.tail)

/-- The clause that it stands for. -/
def clause : Clause :=
  ⟨s.names.map SpacedName.name, s.op, s.literal.literal, s.literal.isQuoted⟩

theorem fieldNames_field : fieldNames s.field = s.names.map SpacedName.name := by
  have hgap : '.' ∉ s.gap := fun hmem => absurd (s.isBlank_gap _ hmem) (by decide)
  rw [field, SpacedName.fieldNames_append_charsOfAll hgap s.isBlank_before,
    fieldNames_eq_nil s.isBlank_gap, List.nil_append]

/-- No operator begins in front of the one that is spelled. -/
theorem not_mem_operatorStarts_field : ∀ c ∈ s.field, c ∉ operatorStarts := by
  intro c hc hstarts
  have hplain : ∀ d ∈ operatorStarts, Text.isBlank d = false ∧ d ∈ separators ∧ d ≠ '.' := by
    decide
  obtain ⟨hblank, hseparator, hdot⟩ := hplain c hstarts
  simp only [field, SpacedName.charsOfAll, List.mem_append, List.mem_flatMap, List.mem_cons] at hc
  rcases hc with (hc | ⟨n, -, hc | hc⟩) | hc
  · exact Bool.false_ne_true (hblank.symm.trans (s.isBlank_gap c hc))
  · exact hdot hc
  · exact n.not_mem_chars hblank hseparator hc
  · exact Bool.false_ne_true (hblank.symm.trans (s.isBlank_before c hc))

/-- Nor is the one that is spelled lengthened by what follows it. -/
theorem head?_tail_ne : s.tail.head? ≠ some '=' := by
  have hbehind : '=' ∉ s.behind := fun hmem => absurd (s.isBlank_behind _ hmem) (by decide)
  have htrail : '=' ∉ s.trail := fun hmem => absurd (s.isBlank_trail _ hmem) (by decide)
  exact head?_append_ne (head?_append_ne (head?_ne_of_not_mem hbehind) s.literal.head?_chars_ne)
    (head?_ne_of_not_mem htrail)

/-- An operator ends in no blank. -/
theorem exists_getLast?_token (op : Comparison) :
    ∃ c, op.token.toList.getLast? = some c ∧ Text.isBlank c = false := by
  cases op <;> exact ⟨_, rfl, by decide⟩

/-- **What is left of a spelling** when the blanks at its ends and the
marker are gone: of the text behind the operator, blanks at the end. -/
theorem dropMarker_trim_text :
    dropMarker (Text.trim s.text.toList) =
      s.field ++ (s.op.token.toList ++ Text.dropEndWhile Text.isBlank s.tail) := by
  obtain ⟨last, hlast, hblank⟩ := exists_getLast?_token s.op
  have hcore : Text.trim (s.marker :: (s.field ++ s.op.token.toList)) =
      s.marker :: (s.field ++ s.op.token.toList) := by
    rw [Text.trim_eq_self_iff, List.getLast?_cons, List.getLast?_append, hlast]
    constructor
    · rintro c ⟨⟩
      rcases s.isMarker with h | h <;> rw [h] <;> decide
    · rintro c ⟨⟩
      exact hblank
  rw [text, String.toList_ofList,
    Text.trim_append_right hcore (List.cons_ne_nil _ _) s.isBlank_lead]
  rcases s.isMarker with h | h <;> rw [h] <;> simp [dropMarker]

/-- **Every spelling is read as its clause.** -/
theorem parse_text : Clause.parse s.text = .ok s.clause := by
  obtain ⟨blanks, -, htail⟩ := Text.exists_dropEndWhile_append Text.isBlank s.tail
  have hright : (Text.dropEndWhile Text.isBlank s.tail).head? ≠ some '=' := by
    intro h
    apply s.head?_tail_ne
    rw [htail, List.head?_append, h, Option.some_or]
  have hliteral : Text.trim (Text.dropEndWhile Text.isBlank s.tail) = s.literal.chars := by
    rw [Text.trim_dropEndWhile, tail]
    exact Text.trim_append s.literal.trim_chars s.isBlank_behind s.isBlank_trail
  simp only [Clause.parse,
    Clause.ofChars?_of_body s.dropMarker_trim_text s.not_mem_operatorStarts_field hright,
    s.fieldNames_field, hliteral, s.literal.dropQuotes_chars,
    restoreDots_eq_self s.literal.noPlaceholder, String.ofList_toList, clause]

end Spelling

/-- **Reading a clause inverts writing it.** Every spelling is read as the
names, the operator, the literal and the quoting that it was put together
from; and the only texts that are not read are those in which no operator
occurs behind the marker. -/
theorem Clause.parse_inverts_spelling :
    (∀ s : Spelling, parse s.text = .ok s.clause) ∧
      ∀ text : String, (∃ e, parse text = .error e) ↔
        ∀ op : Comparison, ¬ op.token.toList <:+: dropMarker (Text.trim text.toList) := by
  refine ⟨Spelling.parse_text, fun text => ?_⟩
  rw [← splitAtOperator_eq_none_iff, parse, ofChars?]
  cases splitAtOperator (dropMarker (Text.trim text.toList)) <;> simp

/-! ## A crowded spelling -/

/-- Two names with blanks and parentheses, and between quotes of two kinds
a literal that holds operators, a dot and a quote. -/
def crowded : Spelling where
  lead := ['\t']
  marker := '*'
  gap := ['\n']
  names := [⟨['\u00a0'], "a b", ['\t'], by decide, by decide, by decide, by decide, by decide⟩,
    ⟨['\n'], "c(d)", ['\r'], by decide, by decide, by decide, by decide, by decide⟩]
  before := [' ', ' ']
  op := .lessOrEqual
  behind := ['\u3000']
  literal := .quoted '"' '\'' "==.'x<" rfl rfl (by decide)
  trail := ['\n']
  isMarker := .inr rfl
  isBlank_lead := by decide
  isBlank_gap := by decide
  isBlank_before := by decide
  isBlank_behind := by decide
  isBlank_trail := by decide

/-- The spelling is read as its clause, and one equals sign is no
operator. -/
theorem Clause.parse_inverts_spelling_crowded :
    crowded.text = "\t*\n.\u00a0a b\t.\nc(d)\r  <=\u3000\"==.'x<'\n" ∧
      parse crowded.text = .ok ⟨["a b", "c(d)"], .lessOrEqual, "==.'x<", true⟩ ∧
      ∃ e, parse "@.Type = '3'" = .error e := by
  have htext : crowded.text = "\t*\n.\u00a0a b\t.\nc(d)\r  <=\u3000\"==.'x<'\n" := by decide +kernel
  have hnone : splitAtOperator (dropMarker (Text.trim "@.Type = '3'".toList)) = none := by
    decide +kernel
  obtain ⟨hspelling, hfails⟩ := parse_inverts_spelling
  exact ⟨htext, hspelling crowded, (hfails _).2 (splitAtOperator_eq_none_iff.1 hnone)⟩

end PathAccess.Filter
