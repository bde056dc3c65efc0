import PathAccess.Proofs.Path.Scanning
/-!
# Texts in parentheses

The scan for the closing parenthesis keeps a depth and an open quote,
while the grammar has neither: there, parentheses come in pairs because
the text is built so. `Unwinds` says what a scan in the middle of its
work has still to see, by depth and quote, and comes down to balanced
text at depth zero.
-/

namespace PathAccess.Path

open Grammar

variable {depth : Nat} {q c : Char} {quote : Option Char}
variable {t body rest : List Char} {text : String}

/-! ## Balanced text is scanned whole -/

/-- Between quotes nothing counts. -/
theorem balanced_quote (hbody : q ∉ body) (rest : List Char) :
    balanced depth (some q) (body ++ q :: rest) =
      (balanced depth none rest).map fun r => (body ++ q :: r.1, r.2) := by
  induction body with
  | nil => simp [balanced]
  | cons c body ih =>
    have hne : c ≠ q := fun heq => hbody (heq ▸ List.mem_cons_self ..)
    simp only [List.cons_append, balanced, hne, if_false,
      ih fun hmem => hbody (List.mem_cons_of_mem _ hmem), Option.map_map]
    rfl

/-- **A balanced text never ends a scan**, at any depth: the scan goes on
behind it as it stood before. -/
theorem balanced_append (h : Balanced t) (depth : Nat) (rest : List Char) :
    balanced depth none (t ++ rest) =
      (balanced depth none rest).map fun r => (t ++ r.1, r.2) := by
  induction h generalizing depth rest with
  | nil => simp
  | plain h₁ h₂ h₃ h₄ _ ih =>
    simp only [List.cons_append, balanced, h₁, h₂, h₃, h₄, false_and, or_self, if_false, ih,
      Option.map_map]
    rfl
  | @quoted q body t hq hbody _ ih =>
    have hclose : q ≠ ')' := by rcases hq with rfl | rfl <;> decide
    have hopen : q ≠ '(' := by rcases hq with rfl | rfl <;> decide
    simp only [List.cons_append, List.append_assoc, balanced, hq, hclose, hopen, false_and,
      if_false, if_true, balanced_quote hbody, ih, Option.map_map]
    rfl
  | @nested body t _ _ ihBody ih =>
    simp [balanced, ihBody, ih, Option.map_map]
    rfl

/-! ## What a scan has still to see -/

/-- **The texts that end a scan**, for the depth it is at and the quote
that is open. -/
inductive Unwinds : Nat → Option Char → List Char → Prop where
  /-- At depth zero, anything balanced is in front of the closing
  parenthesis. -/
  | balanced {t : List Char} : Balanced t → Unwinds 0 none t
  /-- An open parenthesis is closed, and the rest is one level up. -/
  | close {depth : Nat} {body rest : List Char} :
      Balanced body → Unwinds depth none rest → Unwinds (depth + 1) none (body ++ ')' :: rest)
  /-- An open quote is closed. -/
  | quote {depth : Nat} {q : Char} {body rest : List Char} :
      q ∉ body → Unwinds depth none rest → Unwinds depth (some q) (body ++ q :: rest)

namespace Unwinds

/-- What may stand in front of any balanced text may stand in front of a
text that ends a scan. -/
theorem prepend (front : List Char) (hfront : ∀ {t}, Balanced t → Balanced (front ++ t))
    (h : Unwinds depth none t) : Unwinds depth none (front ++ t) := by
  rcases h with ht | ⟨hbody, hrest⟩
  · exact .balanced (hfront ht)
  · rw [← List.append_assoc]
    exact .close (hfront hbody) hrest

theorem plain (h₁ : c ≠ '\'') (h₂ : c ≠ '"') (h₃ : c ≠ '(') (h₄ : c ≠ ')')
    (h : Unwinds depth none t) : Unwinds depth none (c :: t) :=
  prepend [c] (fun ht => .plain h₁ h₂ h₃ h₄ ht) h

/-- A quote opens, and the text closes it. -/
theorem openQuote (hq : q = '\'' ∨ q = '"') (h : Unwinds depth (some q) t) :
    Unwinds depth none (q :: t) := by
  rcases h with _ | _ | ⟨hbody, hrest⟩
  rename_i body rest
  have := prepend (q :: body ++ [q])
    (fun ht => by simpa using Balanced.quoted hq hbody ht) hrest
  simpa using this

/-- A parenthesis opens, and the text closes it. -/
theorem openParenthesis (h : Unwinds (depth + 1) none t) : Unwinds depth none ('(' :: t) := by
  rcases h with _ | ⟨hbody, hrest⟩
  rename_i body rest
  have := prepend ('(' :: body ++ [')'])
    (fun ht => by simpa using Balanced.nested hbody ht) hrest
  simpa using this

/-- One character outside quotes, as the scan takes it. -/
theorem cons (hend : ¬ (c = ')' ∧ depth = 0))
    (h : Unwinds (if c = '(' then depth + 1 else if c = ')' then depth - 1 else depth)
      (if c = '\'' ∨ c = '"' then some c else none) t) : Unwinds depth none (c :: t) := by
  -- a quote, an opening or a closing parenthesis, or any other character
  by_cases hq : c = '\'' ∨ c = '"'
  · have hopen : c ≠ '(' := by rcases hq with rfl | rfl <;> decide
    have hclose : c ≠ ')' := by rcases hq with rfl | rfl <;> decide
    simp only [hq, hopen, hclose, if_true, if_false] at h
    exact h.openQuote hq
  · simp only [hq, if_false] at h
    by_cases hopen : c = '('
    · subst hopen
      exact h.openParenthesis
    · by_cases hclose : c = ')'
      · subst hclose
        obtain ⟨depth, rfl⟩ := Nat.exists_eq_succ_of_ne_zero fun h0 => hend ⟨rfl, h0⟩
        exact .close .nil h
      · simp only [hopen, hclose, if_false] at h
        exact h.plain (fun heq => hq (.inl heq)) (fun heq => hq (.inr heq)) hopen hclose

/-- One character between quotes, as the scan takes it. -/
theorem cons_quote (h : Unwinds depth (if c = q then none else some q) t) :
    Unwinds depth (some q) (c :: t) := by
  by_cases heq : c = q
  · subst heq
    rw [if_pos rfl] at h
    exact List.nil_append (c :: t) ▸ .quote List.not_mem_nil h
  · rw [if_neg heq] at h
    rcases h with _ | _ | ⟨hbody, hrest⟩
    rename_i body rest
    have hbody' : q ∉ c :: body := by
      rw [List.mem_cons]
      rintro (rfl | hmem)
      · exact heq rfl
      · exact hbody hmem
    exact .quote hbody' hrest

end Unwinds

/-- **What a scan takes is what it had still to see**, and the closing
parenthesis stands behind it. -/
theorem unwinds_of_balanced {cs : List Char} (h : balanced depth quote cs = some (t, rest)) :
    cs = t ++ ')' :: rest ∧ Unwinds depth quote t := by
  induction cs generalizing depth quote t with
  | nil => simp [balanced] at h
  | cons c cs ih =>
    rcases quote with _ | q
    · simp only [balanced] at h
      split at h
      · next hend =>
        -- the closing parenthesis, and nothing is open
        obtain ⟨rfl, rfl⟩ := hend
        obtain ⟨rfl, rfl⟩ : [] = t ∧ cs = rest := by simpa using h
        exact ⟨rfl, .balanced .nil⟩
      · next hend =>
        simp only [Option.map_eq_some_iff, Prod.mk.injEq] at h
        obtain ⟨⟨t', rest'⟩, hscan, rfl, rfl⟩ := h
        obtain ⟨rfl, hunwinds⟩ := ih hscan
        exact ⟨rfl, hunwinds.cons hend⟩
    · simp only [balanced, Option.map_eq_some_iff, Prod.mk.injEq] at h
      obtain ⟨⟨t', rest'⟩, hscan, rfl, rfl⟩ := h
      obtain ⟨rfl, hunwinds⟩ := ih hscan
      exact ⟨rfl, hunwinds.cons_quote⟩

/-- **The scan and the grammar agree**: what stands in front of the
closing parenthesis is the balanced text. -/
theorem balanced_eq_some_iff {cs : List Char} :
    balanced 0 none cs = some (t, rest) ↔ cs = t ++ ')' :: rest ∧ Balanced t := by
  constructor
  · intro h
    obtain ⟨hcs, hunwinds⟩ := unwinds_of_balanced h
    obtain ⟨ht⟩ := hunwinds
    exact ⟨hcs, ht⟩
  · rintro ⟨rfl, ht⟩
    rw [balanced_append ht]
    simp [balanced]

/-! ## Parentheses -/

/-- A balanced text in parentheses, and the text without the blanks at
its ends. -/
inductive Parenthesized : List Char → String → Prop where
  | mk {t : List Char} : Balanced t →
      Parenthesized ('(' :: t ++ [')']) (String.ofList (Text.trim t))

theorem reads_enclosed : Reads enclosed Parenthesized nothing where
  sound {cs text rest} h := by
    simp only [enclosed, Option.bind_eq_bind, Option.bind_eq_some_iff, after?_eq_some_iff,
      Option.pure_def, Option.some.injEq, Prod.mk.injEq] at h
    obtain ⟨cs, rfl, ⟨t, rest⟩, hscan, rfl, rfl⟩ := h
    obtain ⟨rfl, ht⟩ := balanced_eq_some_iff.1 hscan
    exact ⟨'(' :: t ++ [')'], by simp, .mk ht⟩
  complete {t text rest} h _ := by
    obtain ⟨ht⟩ := h
    rename_i t
    have hscan : balanced 0 none (t ++ ')' :: rest) = some (t, rest) :=
      balanced_eq_some_iff.2 ⟨rfl, ht⟩
    simp [enclosed, hscan]

end PathAccess.Path
