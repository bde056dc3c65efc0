import PathAccess.Path.Grammar
import Mathlib.Data.List.TakeWhile
/-!
# Scanning a text part by part

What the small readers do, said once for every part. A part **reads** a
grammar when it takes only texts of the grammar, and takes every one of
them whole where the rest does not go on with a character of its class.
The class is what makes greed harmless: a run of digits is taken as a
whole only if no digit stands behind it.

Lists are then read as their parts are. `many` reads repetitions, and a
list with commas is a part and a repetition of parts behind commas.
-/

namespace PathAccess.Path

open Grammar

/-! ## Where a run stops -/

/-- The text is at its end, or goes on with a character outside the
class. -/
def Stops (p : Char → Bool) (cs : List Char) : Prop :=
  ∀ c ∈ cs.head?, p c = false

section

variable {p : Char → Bool} {q : Char → Prop} {c d : Char} {cs t rest : List Char}

@[simp] theorem stops_nil : Stops p [] := by
  simp [Stops]

@[simp] theorem stops_cons : Stops p (c :: cs) ↔ p c = false := by
  simp [Stops]

theorem Stops.takeWhile_eq_nil (h : Stops p cs) : cs.takeWhile p = [] := by
  rcases cs with _ | ⟨c, cs⟩
  · rfl
  · simp [stops_cons.1 h]

theorem Stops.dropWhile_eq (h : Stops p cs) : cs.dropWhile p = cs := by
  rcases cs with _ | ⟨c, cs⟩
  · rfl
  · simp [stops_cons.1 h]

/-- A run is taken whole up to where it stops. -/
theorem takeWhile_run (ht : ∀ c ∈ t, p c = true) (h : Stops p rest) :
    (t ++ rest).takeWhile p = t := by
  rw [List.takeWhile_append_of_pos ht, h.takeWhile_eq_nil, List.append_nil]

/-- And what stands behind it is left. -/
theorem dropWhile_run (ht : ∀ c ∈ t, p c = true) (h : Stops p rest) :
    (t ++ rest).dropWhile p = rest := by
  rw [List.dropWhile_append_of_pos ht, h.dropWhile_eq]

/-- What is left of a text after a run stops there. -/
theorem stops_dropWhile (p : Char → Bool) (cs : List Char) : Stops p (cs.dropWhile p) := by
  intro c hc
  simpa [Option.mem_def.1 hc] using List.head?_dropWhile_not p cs

/-- The empty class, for what ends by itself. -/
def nothing (_ : Char) : Bool :=
  false

@[simp] theorem stops_nothing (cs : List Char) : Stops nothing cs :=
  fun _ _ => rfl

/-! ## How a text begins -/

/-- The text is not empty, and its first character is such. -/
def Begins (q : Char → Prop) (cs : List Char) : Prop :=
  ∃ c ∈ cs.head?, q c

@[simp] theorem not_begins_nil : ¬ Begins q [] := by
  simp [Begins]

@[simp] theorem begins_cons : Begins q (c :: cs) ↔ q c := by
  simp [Begins]

theorem Begins.exists_cons (h : Begins q cs) : ∃ c t, cs = c :: t ∧ q c := by
  rcases cs with _ | ⟨c, t⟩
  · exact absurd h not_begins_nil
  · exact ⟨c, t, rfl, begins_cons.1 h⟩

theorem begins_of_forall (hne : t ≠ []) (h : ∀ c ∈ t, q c) : Begins q t := by
  obtain ⟨c, t, rfl⟩ := List.exists_cons_of_ne_nil hne
  exact begins_cons.2 (h c List.mem_cons_self)

theorem Begins.append (h : Begins q t) (cs : List Char) : Begins q (t ++ cs) := by
  obtain ⟨c, t, rfl, hc⟩ := h.exists_cons
  exact begins_cons.2 hc

theorem Begins.imp {q' : Char → Prop} (h : Begins q t) (hq : ∀ c, q c → q' c) : Begins q' t := by
  obtain ⟨c, hc, hqc⟩ := h
  exact ⟨c, hc, hq c hqc⟩

theorem Begins.length_pos (h : Begins q t) : 0 < t.length := by
  obtain ⟨c, t, rfl, -⟩ := h.exists_cons
  exact Nat.zero_lt_succ _

/-- A text that begins outside the class stops there. -/
theorem Begins.stops (h : Begins q cs) (hq : ∀ c, q c → p c = false) : Stops p cs := by
  obtain ⟨c, hc, hqc⟩ := h
  intro d hd
  rw [Option.mem_unique hd hc]
  exact hq c hqc

theorem Begins.stops_append (h : Begins q t) (hq : ∀ c, q c → p c = false) :
    Stops p (t ++ rest) :=
  (h.append rest).stops hq

/-! ## One character, and layout -/

theorem after?_eq_some_iff : after? c cs = some rest ↔ cs = c :: rest := by
  rcases cs with _ | ⟨d, cs⟩
  · simp [after?]
  · simp only [after?, List.cons.injEq]
    split <;> simp_all

@[simp] theorem after?_cons_self : after? c (c :: cs) = some cs :=
  after?_eq_some_iff.2 rfl

/-- Another character at the head is not taken. -/
theorem after?_eq_none_iff : after? c cs = none ↔ Stops (· == c) cs := by
  rcases cs with _ | ⟨d, cs⟩ <;> simp [after?]

theorem Begins.after?_eq_none (h : Begins q t) (hq : ¬ q c) : after? c (t ++ rest) = none :=
  after?_eq_none_iff.2 (h.stops_append fun _ hd => beq_false_of_ne fun heq => hq (heq ▸ hd))

theorem layout_nil : Layout [] :=
  fun _ hc => absurd hc List.not_mem_nil

theorem Grammar.Layout.append {b : List Char} (hb : Layout b) (ht : Layout t) :
    Layout (b ++ t) := by
  intro c hc
  rcases List.mem_append.1 hc with hc | hc
  · exact hb c hc
  · exact ht c hc

/-- Nothing is skipped where there is no layout. -/
theorem skipLayout_of_stops (h : Stops Text.isLayout cs) : skipLayout cs = cs :=
  h.dropWhile_eq

theorem skipLayout_append (ht : Layout t) : skipLayout (t ++ cs) = skipLayout cs :=
  List.dropWhile_append_of_pos ht

/-- Layout is skipped up to what begins behind it. -/
theorem skipLayout_append_begins {b : List Char} (hb : Layout b)
    (hcs : Begins (Text.isLayout · = false) cs) : skipLayout (b ++ cs) = cs := by
  rw [skipLayout_append hb, skipLayout_of_stops (hcs.stops fun _ hc => hc)]

theorem stops_skipLayout (cs : List Char) : Stops Text.isLayout (skipLayout cs) :=
  stops_dropWhile _ cs

@[simp] theorem skipLayout_skipLayout (cs : List Char) :
    skipLayout (skipLayout cs) = skipLayout cs :=
  skipLayout_of_stops (stops_skipLayout cs)

/-- What is skipped is layout. -/
theorem exists_skipLayout (cs : List Char) : ∃ b, Layout b ∧ cs = b ++ skipLayout cs :=
  ⟨cs.takeWhile Text.isLayout, fun _ hc => List.mem_takeWhile_imp hc,
    List.takeWhile_append_dropWhile.symm⟩

/-- A class without layout stops where it does behind the layout. -/
theorem stops_of_skipLayout (hp : ∀ c, Text.isLayout c = true → p c = false)
    (h : Stops p (skipLayout cs)) : Stops p cs := by
  rcases cs with _ | ⟨c, cs⟩
  · exact stops_nil
  · by_cases hc : Text.isLayout c = true
    · exact stops_cons.2 (hp c hc)
    · have hstop : Stops Text.isLayout (c :: cs) := stops_cons.2 (by simpa using hc)
      rwa [skipLayout_of_stops hstop] at h

/-- As one character does that is no layout. -/
theorem stops_char_of_skipLayout (hc : Text.isLayout c = false)
    (h : Stops (· == c) (skipLayout cs)) : Stops (· == c) cs := by
  refine stops_of_skipLayout (fun d hd => beq_false_of_ne ?_) h
  rintro rfl
  exact Bool.false_ne_true (hc.symm.trans hd)

end

/-! ## Reading a grammar -/

/-- **What it is for a part to read a grammar.** -/
structure Reads {α : Type} (part : List Char → Option (α × List Char))
    (Item : List Char → α → Prop) (p : Char → Bool) : Prop where
  /-- What is taken is of the grammar. -/
  sound {cs a rest} : part cs = some (a, rest) → ∃ t, cs = t ++ rest ∧ Item t a
  /-- What is of the grammar is taken, and nothing more. -/
  complete {t a rest} : Item t a → Stops p rest → part (t ++ rest) = some (a, rest)

section

variable {α : Type} {part : List Char → Option (α × List Char)}
variable {Item : List Char → α → Prop} {p : Char → Bool}
variable {cs t rest : List Char} {a : α} {as : List α}

theorem spaced_eq_some_iff :
    spaced part cs = some (a, rest) ↔
      ∃ r, part (skipLayout cs) = some (a, r) ∧ skipLayout r = rest := by
  simp only [spaced, Option.map_eq_some_iff, Prod.mk.injEq]
  constructor
  · rintro ⟨⟨_, r⟩, hread, rfl, rfl⟩
    exact ⟨r, hread, rfl⟩
  · rintro ⟨r, hread, rfl⟩
    exact ⟨(a, r), hread, rfl, rfl⟩

/-- A part with layout around it is found behind the layout. -/
theorem Reads.spaced_append (h : Reads part Item p) {before : List Char} (hb : Layout before)
    (ht : Begins (Text.isLayout · = false) t) (hitem : Item t a) (hstop : Stops p rest) :
    spaced part (before ++ t ++ rest) = some (a, skipLayout rest) := by
  refine spaced_eq_some_iff.2 ⟨rest, ?_, rfl⟩
  rw [List.append_assoc, skipLayout_append_begins hb (ht.append rest), h.complete hitem hstop]

/-! ## Repetitions -/

/-- Items behind each other. -/
inductive Repeated (Item : List Char → α → Prop) : List Char → List α → Prop where
  | nil : Repeated Item [] []
  | cons {t rest : List Char} {a : α} {as : List α} :
      Item t a → Repeated Item rest as → Repeated Item (t ++ rest) (a :: as)

/-- What `many` takes is a repetition. -/
theorem Reads.many_sound (h : Reads part Item p) (cs : List Char) :
    ∃ t, cs = t ++ (many part cs).2 ∧ Repeated Item t (many part cs).1 := by
  fun_induction many part cs with
  | case1 cs hnone => exact ⟨[], rfl, .nil⟩
  | case2 cs a rest hsome hlt more rest' hmany ih =>
    obtain ⟨t, rfl, hitem⟩ := h.sound hsome
    obtain ⟨t', ht', hrep⟩ := ih
    simp only [hmany] at ht' hrep
    exact ⟨t ++ t', by rw [ht', List.append_assoc], .cons hitem hrep⟩
  | case3 cs a rest hsome hlt => exact ⟨[], rfl, .nil⟩

/-- **A repetition is taken whole** where no further item stands behind
it. Every item has to begin outside the class, or the one before would
run on into it. -/
theorem Reads.many_append (h : Reads part Item p)
    (hbegin : ∀ {t a}, Item t a → Begins (p · = false) t) (hrep : Repeated Item t as)
    (hstop : Stops p rest) (hend : part rest = none) : many part (t ++ rest) = (as, rest) := by
  induction hrep with
  | nil => simp [many, hend]
  | @cons t t' a as hitem hrep ih =>
    -- the item ends where the next one begins, or else where all of them do
    have hnext : Stops p (t' ++ rest) := by
      rcases hrep with _ | ⟨hitem', -⟩
      · exact hstop
      · rw [List.append_assoc]
        exact (hbegin hitem').stops_append fun _ hc => hc
    have hlt : (t' ++ rest).length < (t ++ (t' ++ rest)).length := by
      have := (hbegin hitem).length_pos
      simp only [List.length_append]
      omega
    rw [List.append_assoc, many, h.complete hitem hnext]
    simp only [hlt, if_true, ih]

/-! ## Lists with commas -/

/-- An item behind a comma, with layout around the comma. -/
inductive BehindComma (Item : List Char → α → Prop) : List Char → α → Prop where
  | mk {before behind t : List Char} {a : α} :
      Layout before → Layout behind → Item t a →
      BehindComma Item (before ++ ',' :: (behind ++ t)) a

/-- It begins with layout or with the comma. -/
theorem BehindComma.begins (h : BehindComma Item t a) :
    Begins (fun c => Text.isLayout c = true ∨ c = ',') t := by
  obtain ⟨hb, -, -⟩ := h
  rename_i before behind t
  rcases before with _ | ⟨c, before⟩
  · exact begins_cons.2 (.inr rfl)
  · exact begins_cons.2 (.inl (hb c List.mem_cons_self))

/-- And once the layout is skipped, with the comma. -/
theorem BehindComma.begins_skipLayout (h : BehindComma Item t a) (rest : List Char) :
    Begins (· = ',') (skipLayout (t ++ rest)) := by
  obtain ⟨hb, -, -⟩ := h
  rename_i before behind t
  have hcomma : Begins (Text.isLayout · = false) (',' :: (behind ++ t) ++ rest) :=
    begins_cons.2 (by decide)
  rw [List.append_assoc, skipLayout_append_begins hb hcomma]
  exact begins_cons.2 rfl

/-- A list is an item and a repetition of items behind commas. -/
theorem exists_of_commaList (h : CommaList Item t as) :
    ∃ t₁ t₂ a as', t = t₁ ++ t₂ ∧ as = a :: as' ∧ Item t₁ a ∧
      Repeated (BehindComma Item) t₂ as' := by
  induction h with
  | @one t a hitem => exact ⟨t, [], a, [], by simp, rfl, hitem, .nil⟩
  | @cons t before behind rest a as hitem hb hb' _ ih =>
    obtain ⟨t₁, t₂, a', as', rfl, rfl, hitem', hrep⟩ := ih
    exact ⟨t, before ++ ',' :: (behind ++ t₁) ++ t₂, a, a' :: as', by simp, rfl, hitem,
      .cons (.mk hb hb' hitem') hrep⟩

/-- And the other way around. -/
theorem commaList_of_repeated {t₂ : List Char} (h : Repeated (BehindComma Item) t₂ as)
    (hitem : Item t a) : CommaList Item (t ++ t₂) (a :: as) := by
  induction h generalizing t a with
  | nil =>
    rw [List.append_nil]
    exact .one hitem
  | cons hbehind _ ih =>
    obtain ⟨hb, hb', hitem'⟩ := hbehind
    simpa using CommaList.cons hitem hb hb' (ih hitem')

/-- A list of one item is that item. -/
theorem commaList_singleton_iff : CommaList Item t [a] ↔ Item t a := by
  refine ⟨fun h => ?_, .one⟩
  obtain ⟨t₁, t₂, a', as', rfl, heq, hitem, hrep⟩ := exists_of_commaList h
  obtain ⟨rfl, rfl⟩ := List.cons.inj heq
  rcases hrep with _ | _
  rwa [List.append_nil]

/-- An item behind a comma is read as the item is. -/
theorem Reads.afterComma (h : Reads part Item p)
    (hbegin : ∀ {t a}, Item t a → Begins (Text.isLayout · = false) t) :
    Reads (afterComma part) (BehindComma Item) p where
  sound {cs a rest} hsome := by
    simp only [Path.afterComma, Option.bind_eq_bind, Option.bind_eq_some_iff,
      after?_eq_some_iff] at hsome
    obtain ⟨more, hcomma, hpart⟩ := hsome
    obtain ⟨t, ht, hitem⟩ := h.sound hpart
    obtain ⟨before, hb, hcs⟩ := exists_skipLayout cs
    obtain ⟨behind, hb', hmore⟩ := exists_skipLayout more
    refine ⟨before ++ ',' :: (behind ++ t), ?_, .mk hb hb' hitem⟩
    rw [hcs, hcomma, hmore, ht]
    simp
  complete {t a rest} hbehind hstop := by
    obtain ⟨hb, hb', hitem⟩ := hbehind
    rename_i before behind t
    have hcomma : skipLayout (before ++ ',' :: (behind ++ t) ++ rest) =
        ',' :: (behind ++ (t ++ rest)) := by
      have hbegins : Begins (Text.isLayout · = false) (',' :: (behind ++ (t ++ rest))) :=
        begins_cons.2 (by decide)
      simpa using skipLayout_append_begins hb hbegins
    simp only [Path.afterComma, Option.bind_eq_bind]
    rw [hcomma, after?_cons_self, Option.bind_some,
      skipLayout_append_begins hb' ((hbegin hitem).append rest), h.complete hitem hstop]

/-- What `commaList` takes is a list with commas. -/
theorem Reads.commaList_sound (h : Reads part Item p)
    (hbegin : ∀ {t a}, Item t a → Begins (Text.isLayout · = false) t)
    (hsome : commaList part cs = some ((a, as), rest)) :
    ∃ t, cs = t ++ rest ∧ CommaList Item t (a :: as) := by
  simp only [commaList, Option.bind_eq_bind, Option.bind_eq_some_iff, Option.pure_def,
    Option.some.injEq, Prod.mk.injEq] at hsome
  obtain ⟨⟨first, more⟩, hfirst, ⟨rfl, rfl⟩, rfl⟩ := hsome
  obtain ⟨t₁, rfl, hitem⟩ := h.sound hfirst
  obtain ⟨t₂, ht₂, hrep⟩ := (h.afterComma hbegin).many_sound more
  exact ⟨t₁ ++ t₂, by rw [List.append_assoc, ← ht₂], commaList_of_repeated hrep hitem⟩

/-- **A list with commas is taken whole** where no comma stands behind
it, with or without layout in between. -/
theorem Reads.commaList_append (h : Reads part Item p)
    (hbegin : ∀ {t a}, Item t a → Begins (Text.isLayout · = false) t)
    (hp : ∀ c, Text.isLayout c = true ∨ c = ',' → p c = false)
    (hlist : CommaList Item t (a :: as)) (hstop : Stops p rest)
    (hend : Stops (· == ',') (skipLayout rest)) :
    commaList part (t ++ rest) = some ((a, as), rest) := by
  obtain ⟨t₁, t₂, a', as', rfl, heq, hitem, hrep⟩ := exists_of_commaList hlist
  obtain ⟨rfl, rfl⟩ := List.cons.inj heq
  have hnext : Stops p (t₂ ++ rest) := by
    rcases hrep with _ | ⟨hbehind, -⟩
    · exact hstop
    · rw [List.append_assoc]
      exact hbehind.begins.stops_append hp
  -- `many` ends here, for a comma is what every further item needs
  have hnone : Path.afterComma part rest = none := by
    simp [Path.afterComma, after?_eq_none_iff.2 hend]
  have hmany := (h.afterComma hbegin).many_append
    (fun hbehind => hbehind.begins.imp hp) hrep hstop hnone
  simp [commaList, List.append_assoc, h.complete hitem hnext, hmany]

end

end PathAccess.Path
