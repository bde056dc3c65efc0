import PathAccess.Proofs.Path.Recognition
import PathAccess.Proofs.Text.Trimming
/-!
# Rendered brackets

An element is rendered in one spelling, whatever spelling it was read
from: without layout, with single quotes around names, and with indexes
in their shortest form. What was read in a bracket, or as a name behind a
dot, is rendered as a bracket that stands for it, as long as its names do
not hold the quote that they are rendered in.
-/

-- powers are those of the core library, also where others are in scope
attribute [local instance (2000)] instPowNat

namespace PathAccess

/-- The names that an element holds. -/
def Element.names : Element → List String
  | property name => [name]
  | propertyList names => names
  | _ => []

namespace Path

open Grammar Element

variable {c q : Char} {cs t t' rest rest' body xs behind : List Char}
variable {e : Element} {es more : List Element}

/-! ## Texts in parentheses, trimmed -/

/-- Where a character does not occur in what a text ends with, it
occurs before. -/
theorem exists_append_of_append_eq (h : xs ++ behind = t ++ c :: rest) (hc : c ∉ behind) :
    ∃ mid, xs = t ++ c :: mid ∧ rest = mid ++ behind := by
  rcases List.append_eq_append_iff.1 h with ⟨as, -, rfl⟩ | ⟨bs, rfl, hbs⟩
  · exact absurd (List.mem_append_right as List.mem_cons_self) hc
  · rcases bs with _ | ⟨d, mid⟩
    · obtain rfl : c :: rest = behind := hbs
      exact absurd List.mem_cons_self hc
    · obtain ⟨rfl, rfl⟩ := List.cons.inj hbs
      exact ⟨mid, rfl, rfl⟩

theorem not_mem_of_isBlank (hb : ∀ c ∈ behind, Text.isBlank c = true)
    (hc : Text.isBlank c = false) : c ∉ behind :=
  fun hmem => Bool.false_ne_true (hc.symm.trans (hb c hmem))

theorem isBlank_quote (hq : q = '\'' ∨ q = '"') : Text.isBlank q = false := by
  rcases hq with rfl | rfl <;> decide

/-- A blank in front of a balanced text closes nothing in it. -/
theorem Grammar.Balanced.of_cons_blank (h : Balanced (c :: t)) (hc : Text.isBlank c = true) :
    Balanced t := by
  generalize hs : c :: t = s at h
  cases h with
  | nil => cases hs
  | plain _ _ _ _ hrest =>
    obtain ⟨-, rfl⟩ := List.cons.inj hs
    exact hrest
  | quoted hq =>
    obtain ⟨rfl, -⟩ := List.cons.inj hs
    rw [isBlank_quote hq] at hc
    cases hc
  | nested =>
    obtain ⟨rfl, -⟩ := List.cons.inj hs
    exact absurd hc (by decide)

/-- Nor do several. -/
theorem Grammar.Balanced.of_blanks_append (h : Balanced (cs ++ t))
    (hcs : ∀ c ∈ cs, Text.isBlank c = true) : Balanced t := by
  induction cs with
  | nil => exact h
  | cons c cs ih =>
    obtain ⟨hc, hcs⟩ := List.forall_mem_cons.1 hcs
    exact ih (h.of_cons_blank hc) hcs

/-- Nor do blanks behind it. -/
theorem Grammar.Balanced.of_append_blanks (h : Balanced (xs ++ behind))
    (hb : ∀ c ∈ behind, Text.isBlank c = true) : Balanced xs := by
  generalize hs : xs ++ behind = s at h
  induction h generalizing xs with
  | nil =>
    obtain ⟨rfl, -⟩ := List.append_eq_nil_iff.1 hs
    exact .nil
  | plain h₁ h₂ h₃ h₄ _ ih =>
    rcases xs with _ | ⟨d, xs⟩
    · exact .nil
    · obtain ⟨rfl, hrest⟩ := List.cons.inj hs
      exact .plain h₁ h₂ h₃ h₄ (ih hrest)
  | quoted hq hbody _ ih =>
    obtain ⟨mid, rfl, rfl⟩ :=
      exists_append_of_append_eq hs (not_mem_of_isBlank hb (isBlank_quote hq))
    exact .quoted hq hbody (ih rfl)
  | nested hbody _ _ ih =>
    obtain ⟨mid, rfl, rfl⟩ := exists_append_of_append_eq hs (not_mem_of_isBlank hb (by decide))
    exact .nested hbody (ih rfl)

/-- **A balanced text is balanced when it is trimmed.** -/
theorem Grammar.Balanced.trim (h : Balanced t) : Balanced (Text.trim t) := by
  obtain ⟨before, behind, hbefore, hbehind, ht⟩ := Text.exists_blanks t
  rw [ht, List.append_assoc] at h
  exact (h.of_blanks_append hbefore).of_append_blanks hbehind

/-! ## Indexes -/

theorem digitsValue_toDigits (n : Nat) : Text.digitsValue (Nat.toDigits 10 n) = n :=
  Nat.ofDigitChars_ten_toDigits

theorem digits_toDigits (n : Nat) : Digits (Nat.toDigits 10 n) :=
  ⟨Nat.toDigits_ne_nil, fun _ => Nat.isDigit_of_mem_toDigits (by decide) (by decide)⟩

theorem Grammar.Index.mem_range {i : Int} (h : Index t i) :
    -2 ^ (63 : Nat) ≤ i ∧ i < 2 ^ (63 : Nat) := by
  rcases h with ⟨-, h⟩ | ⟨-, h⟩ | ⟨-, h⟩ <;> omega

/-- **A rendered index is one**, whatever sign and zeros it was read
with. -/
theorem Grammar.Index.render {i : Int} (h : Index t i) : Index (renderIndex i) i := by
  obtain ⟨hlow, hhigh⟩ := h.mem_range
  have hvalue := digitsValue_toDigits i.natAbs
  rw [renderIndex]
  split
  · have hminus := Index.minus (digits_toDigits i.natAbs) (by omega)
    rwa [hvalue, show -(i.natAbs : Int) = i by omega] at hminus
  · have hbare := Index.bare (digits_toDigits i.natAbs) (by omega)
    rwa [hvalue, show (i.natAbs : Int) = i by omega] at hbare

theorem Grammar.Bound.render {o : Option Int} (h : Bound t o) : Bound (renderBound o) o := by
  cases h with
  | missing => exact .missing
  | given _ hi _ => simpa [renderBound] using Bound.given layout_nil hi.render layout_nil

/-- The step of a slice with its colon, which is rendered if it is there. -/
theorem Grammar.SliceStep.render {o : Option Int} (h : SliceStep t o) :
    SliceStep ((o.map fun s => ':' :: renderIndex s).getD []) o := by
  cases h with
  | missing => exact .missing
  | given hb =>
    cases o with
    | none => exact .missing
    | some s => exact .given hb.render

/-! ## Brackets -/

theorem quotedName_renderName {n : String} (h : '\'' ∉ n.toList) :
    QuotedName (renderName n) n := by
  have := QuotedName.mk (.inl rfl) h
  rwa [String.ofList_toList] at this

/-- Rendered items with commas between are a list. -/
theorem commaList_commaSeparated {α : Type} {Item : List Char → α → Prop}
    {render : α → List Char} {a : α} {as : List α} (h : ∀ b ∈ a :: as, Item (render b) b) :
    CommaList Item (commaSeparated ((a :: as).map render)) (a :: as) := by
  induction as generalizing a with
  | nil => simpa [commaSeparated] using CommaList.one (h a List.mem_cons_self)
  | cons b as ih =>
    obtain ⟨ha, has⟩ := List.forall_mem_cons.1 h
    simpa [commaSeparated, List.intercalate_cons_cons] using
      CommaList.cons ha layout_nil layout_nil (ih has)

/-- What the items of a list are, each of them is. -/
theorem Grammar.CommaList.forall {α : Type} {Item : List Char → α → Prop} {P : α → Prop}
    {as : List α} (h : CommaList Item t as) (hP : ∀ {t a}, Item t a → P a) : ∀ a ∈ as, P a := by
  induction h with
  | one hitem => simpa using hP hitem
  | cons hitem _ _ _ ih => exact List.forall_mem_cons.2 ⟨hP hitem, ih⟩

theorem bracket_of_body (h : Body t e) : Bracket ('[' :: t ++ [']']) e := by
  simpa using Grammar.Bracket.mk layout_nil h layout_nil

/-- **What was read in a bracket is rendered as such a bracket**, if its
names hold no single quote. -/
theorem Grammar.Bracket.render (h : Bracket t e) (hnames : ∀ n ∈ e.names, '\'' ∉ n.toList) :
    Bracket e.renderChars e := by
  obtain ⟨-, hbody, -⟩ := h
  cases hbody with
  | filter ht =>
    have := Body.filter ht.trim
    rw [Text.trim_trim] at this
    simpa [renderChars] using bracket_of_body this
  | script ht =>
    have := Body.script ht.trim
    rw [Text.trim_trim] at this
    simpa [renderChars] using bracket_of_body this
  | anyIndex => exact bracket_of_body .anyIndex
  | name => exact bracket_of_body (.name (quotedName_renderName (hnames _ List.mem_cons_self)))
  | names =>
    exact bracket_of_body (.names (commaList_commaSeparated fun n hn =>
      quotedName_renderName (hnames n hn)))
  | slice ha hb hc =>
    simpa [renderChars] using bracket_of_body (.slice ha.render hb.render hc.render)
  | index hi => exact bracket_of_body (.index hi.render)
  | indexes his =>
    exact bracket_of_body (.indexes (commaList_commaSeparated (his.forall Index.render)))

/-- A name behind a dot is rendered in a bracket. -/
theorem Grammar.Member.render (h : Member t e) (hany : e ≠ .anyProperty)
    (hnames : ∀ n ∈ e.names, '\'' ∉ n.toList) : Bracket e.renderChars e := by
  cases h with
  | any => exact absurd rfl hany
  | name => exact bracket_of_body (.name (quotedName_renderName (hnames _ List.mem_cons_self)))

end Path

end PathAccess
