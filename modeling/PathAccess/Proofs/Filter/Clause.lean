import PathAccess.Filter.Clause
import PathAccess.Proofs.Path.Writing
/-!
# Reading the parts of a clause

Each of the cuts that make a clause of a text undoes a way of putting
texts together. An operator is found behind a text in which none begins,
and what follows it may hold any others. A dot parts the names before it
from those behind it. Of a literal between quotes the two quotes are
dropped and nothing else.
-/

-- a statement about a list of characters is decided by the list, also where one about all
-- characters can be
attribute [local instance (2000)] List.decidableBAll

namespace PathAccess.Filter

variable {c : Char} {cs xs ys left right : List Char} {op : Comparison}

/-! ## The head of a text -/

theorem head?_ne_of_not_mem (h : c ∉ cs) : cs.head? ≠ some c :=
  fun heq => h (List.mem_of_mem_head? heq)

/-- A character that begins neither text does not begin the two. -/
theorem head?_append_ne (hxs : xs.head? ≠ some c) (hys : ys.head? ≠ some c) :
    (xs ++ ys).head? ≠ some c := by
  cases xs with
  | nil => exact hys
  | cons d xs => exact hxs

/-! ## The operator -/

/-- The characters that an operator may begin with. -/
def operatorStarts : List Char :=
  ['<', '>', '=', '!']

theorem operator?_eq_none (hc : c ∉ operatorStarts) : operator? (c :: cs) = none := by
  simp only [operatorStarts, List.mem_cons, List.not_mem_nil, or_false, not_or] at hc
  obtain ⟨hless, hgreater, hequal, hbang⟩ := hc
  simp [operator?, hless, hgreater, hequal, hbang]

/-- A blank is none of them. -/
theorem not_mem_operatorStarts (hc : Text.isBlank c = true) : c ∉ operatorStarts := by
  have hstarts : ∀ d ∈ operatorStarts, Text.isBlank d = false := by decide
  intro hmem
  exact Bool.false_ne_true ((hstarts c hmem).symm.trans hc)

/-- An operator is not taken for a shorter one, nor for a longer one
where no equals sign follows. -/
theorem operator?_token (hright : right.head? ≠ some '=') :
    operator? (op.token.toList ++ right) = some (op, right) := by
  have hlonger : ∀ cs, right ≠ '=' :: cs := fun cs heq => hright (heq ▸ rfl)
  cases op with
  | less => exact operator?.eq_5 right hlonger
  | greater => exact operator?.eq_6 right hlonger
  | _ => rfl

/-- **A text is cut at the operator it was put together with**, if none
begins before it. -/
theorem splitAtOperator_append (hleft : ∀ c ∈ left, c ∉ operatorStarts)
    (hright : right.head? ≠ some '=') :
    splitAtOperator (left ++ (op.token.toList ++ right)) = some (left, op, right) := by
  induction left with
  | nil =>
    have htoken : operator? (op.token.toList ++ right) = some (op, right) :=
      operator?_token hright
    cases op <;> simp_all [splitAtOperator, Comparison.token]
  | cons c left ih =>
    obtain ⟨hc, hleft⟩ := List.forall_mem_cons.1 hleft
    simp only [List.cons_append, splitAtOperator, operator?_eq_none hc, ih hleft, Option.map_some]

/-- What is taken for an operator is its token. -/
theorem eq_token_append (h : operator? cs = some (op, right)) :
    cs = op.token.toList ++ right := by
  unfold operator? at h
  split at h <;> cases h <;> rfl

/-- **An operator is found at the head of a text that begins with a
token.** -/
theorem operator?_eq_none_iff :
    operator? cs = none ↔ ∀ op : Comparison, ¬ op.token.toList <+: cs := by
  constructor
  · rintro h op ⟨right, rfl⟩
    revert h
    cases op with
    | less | greater =>
      by_cases hright : right.head? = some '='
      · obtain ⟨rest, rfl⟩ := List.head?_eq_some_iff.1 hright
        exact nofun
      · rw [operator?_token hright]
        exact nofun
    | _ => exact nofun
  · intro h
    cases hop : operator? cs with
    | none => rfl
    | some found => exact absurd ⟨found.2, (eq_token_append hop).symm⟩ (h found.1)

/-- **A text is not cut where no token occurs in it**, and only there. -/
theorem splitAtOperator_eq_none_iff :
    splitAtOperator cs = none ↔ ∀ op : Comparison, ¬ op.token.toList <:+: cs := by
  have htoken (op : Comparison) : op.token.toList ≠ [] := by cases op <;> decide
  induction cs with
  | nil => simp [splitAtOperator, htoken]
  | cons c cs ih =>
    simp only [List.infix_cons_iff, not_or, forall_and, ← ih, ← operator?_eq_none_iff]
    cases hop : operator? (c :: cs) with
    | none => simp [splitAtOperator, hop]
    | some found => simp [splitAtOperator, hop]

/-! ## The names -/

theorem splitAtDots_ne_nil (cs : List Char) : splitAtDots cs ≠ [] := by
  cases cs with
  | nil => simp [splitAtDots]
  | cons c cs => grind [splitAtDots]

/-- A dot parts what stands before it from what stands behind it. -/
theorem splitAtDots_append (xs ys : List Char) :
    splitAtDots (xs ++ '.' :: ys) = splitAtDots xs ++ splitAtDots ys := by
  induction xs with
  | nil => simp [splitAtDots]
  | cons c xs ih =>
    obtain ⟨part, parts, hparts⟩ := List.exists_cons_of_ne_nil (splitAtDots_ne_nil xs)
    by_cases hc : c = '.' <;> simp [splitAtDots, hc, ih, hparts]

/-- Where there is no dot, the text is its only part. -/
theorem splitAtDots_eq_singleton (h : '.' ∉ cs) : splitAtDots cs = [cs] := by
  induction cs with
  | nil => rfl
  | cons c cs ih =>
    obtain ⟨hc, hcs⟩ := not_or.1 (mt List.mem_cons.2 h)
    simp [splitAtDots, Ne.symm hc, ih hcs]

/-- **The names in front of a dot come before those behind it.** -/
theorem fieldNames_append (xs ys : List Char) :
    fieldNames (xs ++ '.' :: ys) = fieldNames xs ++ fieldNames ys := by
  simp [fieldNames, splitAtDots_append]

/-- Blanks at the end do not matter. -/
theorem fieldNames_append_blanks {behind : List Char} (hdot : '.' ∉ cs)
    (hbehind : ∀ c ∈ behind, Text.isBlank c = true) :
    fieldNames (cs ++ behind) = fieldNames cs := by
  have hboth : '.' ∉ cs ++ behind := by
    rw [List.mem_append, not_or]
    exact ⟨hdot, fun hmem => absurd (hbehind _ hmem) (by decide)⟩
  simp only [fieldNames, splitAtDots_eq_singleton hdot, splitAtDots_eq_singleton hboth,
    List.map_singleton, Text.trim_append_blanks cs hbehind]

/-- Blanks name nothing. -/
theorem fieldNames_eq_nil (h : ∀ c ∈ cs, Text.isBlank c = true) : fieldNames cs = [] :=
  fieldNames_append_blanks List.not_mem_nil h

/-- Any other text without a dot is one name, once the blanks at its ends
are gone. -/
theorem fieldNames_eq_singleton (hdot : '.' ∉ cs) (hne : Text.trim cs ≠ []) :
    fieldNames cs = [String.ofList (Path.restoreDots (Text.trim cs))] := by
  simp [fieldNames, splitAtDots_eq_singleton hdot, hne]

/-! ## The literal -/

/-- **One quote is dropped at each end**, whatever stands between. -/
theorem dropQuotes_quoted {opening closing : Char} (hopening : isQuote opening = true)
    (hclosing : isQuote closing = true) (body : List Char) :
    dropQuotes (opening :: body ++ [closing]) = (body, true) := by
  simp [dropQuotes, dropQuote, hopening, hclosing]

/-- And none, where there is none at either end. -/
theorem dropQuotes_bare (hhead : ∀ c ∈ cs.head?, isQuote c = false)
    (hlast : ∀ c ∈ cs.getLast?, isQuote c = false) : dropQuotes cs = (cs, false) := by
  have hkept {ds : List Char} (hds : ∀ c ∈ ds.head?, isQuote c = false) :
      dropQuote ds = (ds, false) := by
    cases ds with
    | nil => rfl
    | cons c ds => simp [dropQuote, hds c rfl]
  have hreverse : dropQuote cs.reverse = (cs.reverse, false) :=
    hkept (by rwa [List.head?_reverse])
  simp [dropQuotes, hkept hhead, hreverse]

/-- Where no quotes were dropped, none were there. -/
theorem dropQuotes_eq_self {cs : List Char} (h : (dropQuotes cs).2 = false) :
    (dropQuotes cs).1 = cs := by
  have hkept {ds : List Char} (hds : (dropQuote ds).2 = false) : (dropQuote ds).1 = ds := by
    cases ds with
    | nil => rfl
    | cons d ds =>
      cases hquote : isQuote d <;> simp_all [dropQuote]
  obtain ⟨hopening, hclosing⟩ : (dropQuote cs).2 = false ∧
      (dropQuote (dropQuote cs).1.reverse).2 = false := Bool.or_eq_false_iff.1 h
  simp only [dropQuotes]
  rw [hkept hclosing, List.reverse_reverse, hkept hopening]

/-! ## The clause -/

theorem Clause.parse_eq_ok_iff {text : String} {clause : Clause} :
    parse text = .ok clause ↔ ofChars? text.toList = some clause := by
  rw [parse]
  cases ofChars? text.toList <;> simp

/-- **A clause is put together from its parts**: the names in front of the
first operator, and the literal behind it. -/
theorem Clause.ofChars?_of_body
    (hbody : dropMarker (Text.trim cs) = left ++ (op.token.toList ++ right))
    (hleft : ∀ c ∈ left, c ∉ operatorStarts) (hright : right.head? ≠ some '=') :
    ofChars? cs = some ⟨fieldNames left, op,
      String.ofList (Path.restoreDots (dropQuotes (Text.trim right)).1),
      (dropQuotes (Text.trim right)).2⟩ := by
  simp only [ofChars?, hbody, splitAtOperator_append hleft hright, Option.map_some]

/-- A bare literal has no blanks at its ends. -/
theorem Clause.trim_literal {text : String} {clause : Clause} (h : parse text = .ok clause)
    (hbare : clause.quoted = false) :
    Text.trim clause.literal.toList = clause.literal.toList := by
  obtain ⟨⟨left, op, right⟩, -, rfl⟩ := Option.map_eq_some_iff.1 (parse_eq_ok_iff.1 h)
  simp only [String.toList_ofList, dropQuotes_eq_self hbare]
  rw [Path.trim_restoreDots, Text.trim_trim]

end PathAccess.Filter
