import PathAccess.Proofs.Chain.TypeSoundness
import PathAccess.Proofs.Filter.Field
/-!
# Predicates compare like with like

The literal of a filter is read for the shape of the compared field, and
the field of an element that fits is null or of that shape. So between
the two there is an order, unless one of them is null: of the operators
`<`, `==` and `>` exactly one holds. Null is equal to null and unequal to
any other value, and that is all that is said of it.

A shape of unknown values is the exception. Any value fits it and any
literal is taken for it, also where it is optional, so the two may well
be of different kinds, or of a kind that has no order.
-/

namespace PathAccess

open PathAccess.Filter

/-- A record, a list or a map, under any optional layers. -/
def Shape.IsCompound (s : Shape) : Prop :=
  (∃ r, s.nonNull = .record r) ∨ (∃ element, s.nonNull = .list element) ∨
    ∃ value, s.nonNull = .map value

/-- These are the shapes without an order. -/
theorem Shape.isOrderable_eq_false_iff {s : Shape} : s.isOrderable = false ↔ s.IsCompound := by
  rw [isOrderable, IsCompound]
  cases hs : s.nonNull with
  | optional inner => exact absurd hs (nonNull_ne_optional s inner)
  | _ => simp

/-! ## The word null -/

namespace Json

theorem afterWord?_eq_some {word cs rest : List Char} (h : afterWord? word cs = some rest) :
    cs = word ++ rest := by
  fun_induction afterWord? word cs with
  | case1 cs => exact Option.some.inj h
  | case2 w word cs ih => rw [ih h, List.cons_append]
  | case3 => cases h
  | case4 => cases h

/-- Null is read from its word alone. -/
theorem skipBlanks_of_value?_eq_null {fuel levels : Nat} {cs rest : List Char}
    (h : value? fuel levels cs = some (.null, rest)) :
    skipBlanks cs = "null".toList ++ rest := by
  cases fuel with
  | zero =>
    rw [value?] at h
    cases h
  | succ fuel =>
    rw [value?] at h
    split at h
    · next word hcs =>
      obtain ⟨_, hafter, hrest⟩ := Option.map_eq_some_iff.1 h
      cases hrest
      rw [hcs, afterWord?_eq_some hafter]
      rfl
    -- any other token begins another value
    · simp at h
    · simp at h
    · simp at h
    · split at h <;> simp at h
    · split at h <;> simp [ofEntries] at h
    · simp at h

/-- **Null is spelled in one way**, up to blanks. -/
theorem trim_of_parse?_eq_null {text : String} (h : parse? text = some .null) :
    Text.trim text.toList = "null".toList := by
  simp only [parse?, parseWithin?] at h
  split at h
  · next j rest hvalue =>
    split at h
    · next hrest =>
      cases h
      have hbehind : ∀ c ∈ rest, Text.isBlank c = true := fun c hc =>
        Text.isBlank_of_isLayout (List.dropWhile_eq_nil_iff.1 (List.isEmpty_iff.1 hrest) c hc)
      have hbefore : ∀ c ∈ text.toList.takeWhile Text.isLayout, Text.isBlank c = true :=
        fun c hc => Text.isBlank_of_isLayout (List.mem_takeWhile_imp hc)
      calc Text.trim text.toList
        _ = Text.trim (text.toList.takeWhile Text.isLayout ++ "null".toList ++ rest) := by
            rw [List.append_assoc, ← skipBlanks_of_value?_eq_null hvalue, skipBlanks,
              List.takeWhile_append_dropWhile]
        _ = "null".toList := Text.trim_append (by decide) hbefore hbehind
    · cases h
  · cases h

end Json

/-! ## Literals -/

namespace Filter

variable {text literal : String} {clause : Clause} {field : Shape} {value item : Json}

/-- The literal is the bare word for null. -/
def Clause.SaysNull (clause : Clause) : Prop :=
  clause.literal = "null" ∧ clause.quoted = false

instance : Decidable clause.SaysNull :=
  inferInstanceAs (Decidable (_ ∧ _))

/-- An optional layer adds the word to the literals. -/
theorem operand_optional (inner : Shape) :
    operand clause (.optional inner) =
      if clause.SaysNull then .ok .null else operand clause inner := by
  rw [operand]
  rfl

/-- **A constant for a field of a shape**: a value of the very shape, or
null where it is optional. -/
inductive Suits : Shape → Json → Prop where
  | bool (b : Bool) : Suits .bool (.bool b)
  | integer (n : Whole) : Suits .integer (.number (.whole n))
  | float (d : Binary64) : Suits .float (.number (.float d))
  | text (s : String) : Suits .text (.string s)
  | any (v : Json) : Suits .any v
  | null {inner : Shape} : Suits (.optional inner) .null
  | optional {inner : Shape} {v : Json} : Suits inner v → Suits (.optional inner) v

theorem exists_of_boolLiteral? (h : boolLiteral? literal = some value) : ∃ b, value = .bool b := by
  grind [boolLiteral?]

/-- **A literal gives a constant for its field.** -/
theorem suits_of_operand (h : operand clause field = .ok value) : Suits field value := by
  fun_induction operand clause field with
  | case1 =>
    cases h
    exact .text _
  | case2 =>
    obtain ⟨n, -, rfl⟩ := Option.map_eq_some_iff.1 (orMismatch_eq_ok_iff.1 h)
    exact .integer n
  | case3 =>
    obtain ⟨d, -, rfl⟩ := Option.map_eq_some_iff.1 (orMismatch_eq_ok_iff.1 h)
    exact .float d
  | case4 =>
    obtain ⟨b, rfl⟩ := exists_of_boolLiteral? (orMismatch_eq_ok_iff.1 h)
    exact .bool b
  | case5 inner =>
    cases h
    exact .null
  | case6 inner _ ih => exact .optional (ih h)
  | case7 => exact .any _
  | case8 => exact .any _
  | case9 => cases orMismatch_eq_ok_iff.1 h

/-- A literal that is not the bare word for null is not read as null,
whatever the field. -/
theorem operand_ne_null_of_not_saysNull (h : operand clause field = .ok value)
    (hparse : Clause.parse text = .ok clause) (hspelled : ¬ clause.SaysNull) : value ≠ .null := by
  rintro rfl
  fun_induction Shape.nonNull field with
  | case1 inner ih =>
    rw [operand_optional, if_neg hspelled] at h
    exact ih h
  | case2 field hfield =>
    cases suits_of_operand h with
    | null => exact hfield _ rfl
    | optional => exact hfield _ rfl
    | any =>
      -- JSON has other spellings of null than the bare word, with blanks around it
      rw [operand] at h
      split at h
      · cases h
      · next hbare =>
        rw [Bool.not_eq_true] at hbare
        cases hvalue : Json.parse? clause.literal with
        | none => simp [hvalue] at h
        | some v =>
          obtain rfl : v = .null := by simpa [hvalue] using h
          have hword := Json.trim_of_parse?_eq_null hvalue
          rw [Clause.trim_literal hparse hbare] at hword
          exact hspelled ⟨String.toList_inj.1 hword, hbare⟩

/-- **The operand is null where the literal says so** and the field may be
null, and nowhere else. -/
theorem operand_eq_null_iff (h : operand clause field = .ok value)
    (hparse : Clause.parse text = .ok clause) (hany : field ≠ .any) :
    value = .null ↔ (∃ inner, field = .optional inner) ∧ clause.SaysNull := by
  constructor
  · rintro rfl
    refine ⟨?_, Decidable.not_not.1 fun hspelled =>
      operand_ne_null_of_not_saysNull h hparse hspelled rfl⟩
    cases suits_of_operand h with
    | any => exact absurd rfl hany
    | null => exact ⟨_, rfl⟩
    | optional => exact ⟨_, rfl⟩
  · rintro ⟨⟨inner, rfl⟩, hspelled⟩
    rw [operand_optional, if_pos hspelled] at h
    exact (Except.ok.inj h).symm

/-! ## Constants and values -/

namespace Suits

/-- Only a shape with an order has constants other than null. -/
theorem isOrderable (h : Suits field value) (hne : value ≠ .null) : field.isOrderable = true := by
  induction h with
  | null => exact absurd rfl hne
  | optional _ ih => exact ih hne
  | _ => rfl

/-- **Between a value of a shape and a constant for it there is an
order**, if neither is null and the shape is of known values. -/
theorem exists_scalarOrder? (h : Suits field value) (hne : value ≠ .null)
    (hany : field.nonNull ≠ .any) (hfit : field.Fits .lenient item) (hitem : item ≠ .null) :
    ∃ o, item.scalarOrder? value = some o := by
  replace hfit := Shape.fits_nonNull hfit hitem
  induction h with
  | bool b =>
    obtain ⟨_, rfl⟩ := hfit
    exact ⟨_, rfl⟩
  | integer n =>
    obtain ⟨_, rfl⟩ := hfit
    exact ⟨_, rfl⟩
  | float d =>
    obtain ⟨_, rfl⟩ := hfit
    exact ⟨_, rfl⟩
  | text s =>
    obtain ⟨_, rfl⟩ := hfit.resolve_left fun hnull => hitem hnull.2
    exact ⟨_, rfl⟩
  | any => exact absurd rfl hany
  | null => exact absurd rfl hne
  | optional _ ih => exact ih hne hany hfit

end Suits

/-- **For a field without an order** null is the only constant, and the
bare word its only literal. -/
theorem exists_operand_iff_of_not_isOrderable (hparse : Clause.parse text = .ok clause)
    (hfield : field.isOrderable = false) :
    (∃ value, operand clause field = .ok value) ↔
      (∃ inner, field = .optional inner) ∧ clause.SaysNull := by
  have hany : field ≠ .any := by
    rintro rfl
    cases hfield
  constructor
  · rintro ⟨value, h⟩
    refine (operand_eq_null_iff h hparse hany).1 ?_
    by_cases hne : value = .null
    · exact hne
    · exact absurd ((suits_of_operand h).isOrderable hne) (hfield ▸ Bool.false_ne_true)
  · rintro ⟨⟨inner, rfl⟩, hspelled⟩
    exact ⟨.null, by rw [operand_optional, if_pos hspelled]⟩

/-- The operator does not matter to the operand. -/
theorem operand_withOp (op : Comparison) :
    operand { clause with op } field = operand clause field := by
  fun_induction operand clause field <;> simp_all [operand]

end Filter

/-! ## The field of an element -/

namespace Resolves

variable {current : Shape} {names : List String} {links : List Link} {j : Json}

/-- Behind a shape of unknown members everything is of unknown shape. -/
theorem lastShape_eq_any (h : Resolves current names links) (hany : current.nonNull = .any)
    (hne : links ≠ []) : lastShape current links = .any := by
  induction h with
  | nil => exact absurd rfl hne
  | @cons current shape name names l links hl hlinks ih =>
    obtain rfl : shape = .any := by
      simp only [Lookup.resolve, hany] at hl
      cases hl
      rfl
    cases hlinks with
    | nil => rfl
    | cons => exact ih rfl (List.cons_ne_nil _ _)

/-- **The field of an element that fits is null or fits its shape**, by
induction on the names: a name that is missing leaves null behind it, and
any other reads a value that fits. -/
theorem fits_fieldAt (h : Resolves current names links) (hany : lastShape current links ≠ .any)
    (hfit : current.Fits .lenient j) :
    j.fieldAt names = .null ∨ (lastShape current links).Fits .lenient (j.fieldAt names) := by
  induction h generalizing j with
  | nil => exact .inr hfit
  | @cons current shape name names l links hl hlinks ih =>
    have hknown : current.nonNull ≠ .any := fun hcurrent =>
      hany ((Resolves.cons hl hlinks).lastShape_eq_any hcurrent (List.cons_ne_nil _ _))
    rw [Json.fieldAt_cons]
    cases hget : j.get? name with
    | none => exact .inl (Json.fieldAt_null names)
    | some inner =>
      have hne : j ≠ .null := by
        rintro rfl
        cases hget
      obtain ⟨r, happly, hr⟩ := (Chain.follows_of_resolve hl).sound hknown hfit hne
      have hvalue := Step.value_of_apply_lookup happly
      rw [Lookup.key_of_resolve hl, hget] at hvalue
      exact ih hany (hvalue ▸ hr)

end Resolves

/-! ## Predicates -/

namespace Filter.Predicate

variable {text : String} {clause : Clause} {element : Shape} {links : List Link} {p : Predicate}

/-- **A predicate that compares like with like.** Its operand is a
constant for the field, and null only as the literal says so. On null it
says whether the operand is null. Any other operator has its predicate on
the same field and literal, and of those that exclude each other exactly
one holds between two values other than null, unless the values of the
field are unknown. -/
structure ComparesAlike (p : Predicate) (clause : Clause) (element field : Shape) : Prop where
  suits : Suits field p.operand
  operand_eq_null_iff :
    p.operand = .null ↔ (∃ inner, field = .optional inner) ∧ clause.SaysNull
  holds_of_null : ∀ item, p.field item = .null →
    (p.holds item = true ↔
      p.op = .equal ∧ p.operand = .null ∨ p.op = .notEqual ∧ p.operand ≠ .null)
  compile_withOp : p.operand ≠ .null → ∀ op text, Clause.parse text = .ok { clause with op } →
    compile text element = .ok { p with op }
  exists_scalarOrder? : field.nonNull ≠ .any → ∀ item, element.Fits .lenient item →
    p.field item ≠ .null → p.operand ≠ .null →
      (∃ o, (p.field item).scalarOrder? p.operand = some o) ∧
        ∃! op, op ∈ Comparison.exclusive ∧ ({ p with op } : Predicate).holds item = true

/-- The predicate of a clause compares like with like. -/
theorem comparesAlike_of_ofClause (hparse : Clause.parse text = .ok clause)
    (hlinks : Resolves element clause.names links) (hany : lastShape element links ≠ .any)
    (h : ofClause text clause element = .ok p) :
    p.ComparesAlike clause element (lastShape element links) := by
  obtain ⟨field, hlookups, -, -, hoperand⟩ := ofClause_eq_ok_iff.1 h
  obtain ⟨lookups, hall, -, hkeys⟩ := hlinks.exists_lookups
  cases hall.symm.trans hlookups
  have hsuits := suits_of_operand hoperand
  refine ⟨hsuits, Filter.operand_eq_null_iff hoperand hparse hany, fun item hnull => ?_,
    fun hne op other hother => ?_, fun hknown item hfit hitem hne => ?_⟩
  · rw [holds, hnull]
    exact Comparison.test_null_iff
  · refine compile_eq_ok_iff.2 ⟨_, hother, ofClause_eq_ok_iff.2 ?_⟩
    exact ⟨_, hlookups, fun _ => hsuits.isOrderable hne, rfl,
      (operand_withOp op).trans hoperand⟩
  · have hfield : (lastShape element links).Fits .lenient (p.field item) := by
      rw [field_eq_fieldAt, hkeys] at hitem ⊢
      exact (hlinks.fits_fieldAt hany hfit).resolve_left hitem
    obtain ⟨o, ho⟩ := hsuits.exists_scalarOrder? hne hknown hfield hitem
    exact ⟨⟨o, ho⟩, Comparison.existsUnique_test ho⟩

/-- For a compound field a filter may only ask whether it is null. -/
theorem exists_compile_iff_of_isCompound (hparse : Clause.parse text = .ok clause)
    (hlinks : Resolves element clause.names links)
    (hcompound : (lastShape element links).IsCompound) :
    (∃ p, compile text element = .ok p) ↔
      (clause.op = .equal ∨ clause.op = .notEqual) ∧
        (∃ inner, lastShape element links = .optional inner) ∧ clause.SaysNull := by
  have horder : (lastShape element links).isOrderable = false :=
    Shape.isOrderable_eq_false_iff.2 hcompound
  obtain ⟨lookups, hall, -⟩ := hlinks.exists_lookups
  rw [← Comparison.isRelational_eq_false_iff,
    ← exists_operand_iff_of_not_isOrderable hparse horder]
  constructor
  · rintro ⟨p, h⟩
    obtain ⟨found, hfound, hclause⟩ := compile_eq_ok_iff.1 h
    cases hparse.symm.trans hfound
    obtain ⟨field, hlookups, hrelational, -, hoperand⟩ := ofClause_eq_ok_iff.1 hclause
    cases hall.symm.trans hlookups
    refine ⟨?_, _, hoperand⟩
    rw [← Bool.not_eq_true]
    exact fun hop => Bool.false_ne_true (horder.symm.trans (hrelational hop))
  · rintro ⟨hop, value, hoperand⟩
    refine ⟨⟨lookups, clause.op, value⟩, compile_eq_ok_iff.2 ⟨clause, hparse, ?_⟩⟩
    exact ofClause_eq_ok_iff.2 ⟨_, hall, fun hrelational =>
      absurd (hop.symm.trans hrelational) Bool.false_ne_true, rfl, hoperand⟩

/-- **Accepted predicates compare like with like.** Where the names of a
filter lead to a field of known shape, its predicate does, on every
element that fits; no name on the way there stands behind an unknown
shape, since such a shape has nothing else behind it. Only for the order
of two values must the field not be one of optional unknown values
either. For a record, a list or a map no filter is accepted but those
that ask whether an optional one is null. -/
theorem compares_like_with_like (text : String) (element : Shape) :
    (∀ p, compile text element = .ok p →
      ∃ clause links, Clause.parse text = .ok clause ∧ Resolves element clause.names links ∧
        (lastShape element links ≠ .any →
          p.ComparesAlike clause element (lastShape element links))) ∧
      ∀ clause links, Clause.parse text = .ok clause → Resolves element clause.names links →
        (lastShape element links).IsCompound →
          ((∃ p, compile text element = .ok p) ↔
            (clause.op = .equal ∨ clause.op = .notEqual) ∧
              (∃ inner, lastShape element links = .optional inner) ∧ clause.SaysNull) := by
  constructor
  · intro p h
    obtain ⟨clause, hparse, hclause⟩ := compile_eq_ok_iff.1 h
    obtain ⟨field, hlookups, -⟩ := ofClause_eq_ok_iff.1 hclause
    obtain ⟨links, hlinks, -⟩ := Resolves.of_resolveAll hlookups
    exact ⟨clause, links, hparse, hlinks, fun hany =>
      comparesAlike_of_ofClause hparse hlinks hany hclause⟩
  · intro clause links hparse hlinks hcompound
    exact exists_compile_iff_of_isCompound hparse hlinks hcompound

/-! ## A row of a table -/

/-- A row with a count, tags and a note of unknown shape, each of which
may be missing. -/
def rowShape : Shape :=
  .record ⟨"Row", [("count", .optional .integer), ("tags", .optional (.list .text)),
    ("note", .optional .any)], none, none⟩

/-- The predicate that the count is below three. -/
def fewerThanThree : Predicate :=
  ⟨[.member "count"], .less, .number (.whole ⟨3, by decide, by decide⟩)⟩

theorem parse_fewerThanThree :
    Clause.parse "@.count<3" = .ok ⟨["count"], .less, "3", false⟩ :=
  Clause.parse_eq_ok_iff.2 (by decide +kernel)

theorem compile_fewerThanThree : compile "@.count<3" rowShape = .ok fewerThanThree := by
  refine compile_eq_ok_iff.2 ⟨_, parse_fewerThanThree, ofClause_eq_ok_iff.2 ⟨_, rfl, ?_, rfl, ?_⟩⟩
  · exact fun _ => rfl
  · rw [operand_optional, if_neg (by decide)]
    exact orMismatch_eq_ok_iff.2 rfl

theorem parse_tags : Clause.parse "@.tags=='x'" = .ok ⟨["tags"], .equal, "x", true⟩ :=
  Clause.parse_eq_ok_iff.2 (by decide +kernel)

/-- A count is compared in exactly one way, a missing one is not below
three, and tags are not compared with a text. -/
theorem compares_like_with_like_row :
    compile "@.count<3" rowShape = .ok fewerThanThree ∧
      Suits (.optional .integer) fewerThanThree.operand ∧
      fewerThanThree.holds (.object []) = false ∧
      (∃! op, op ∈ Comparison.exclusive ∧
        ({ fewerThanThree with op } : Predicate).holds (.object [("count", .zero)]) = true) ∧
      ¬ ∃ p, compile "@.tags=='x'" rowShape = .ok p := by
  obtain ⟨hcount, -⟩ := compares_like_with_like "@.count<3" rowShape
  obtain ⟨-, htags⟩ := compares_like_with_like "@.tags=='x'" rowShape
  obtain ⟨clause, links, hparse, hlinks, halike⟩ := hcount _ compile_fewerThanThree
  cases parse_fewerThanThree.symm.trans hparse
  cases hlinks with
  | cons hl hnil =>
    cases hl
    cases hnil
    have halike := halike (by rintro ⟨⟩)
    have hfit : rowShape.Fits .lenient (.object [("count", .zero)]) := by
      simp [rowShape, Shape.Fits, Shape.RecordFits, Shape.MembersFit, Json.entryValue?_cons,
        Json.zero]
    have hnull : fewerThanThree.holds (.object []) = false := by
      rw [← Bool.not_eq_true, halike.holds_of_null _ rfl]
      rintro (⟨⟨⟩, -⟩ | ⟨⟨⟩, -⟩)
    refine ⟨compile_fewerThanThree, halike.suits, hnull, ?_, fun htag => ?_⟩
    · refine (halike.exists_scalarOrder? ?_ _ hfit ?_ ?_).2 <;> rintro ⟨⟩
    · have hspelled := (htags _ _ parse_tags (.cons rfl .nil) (.inr (.inl ⟨_, rfl⟩))).1 htag
      exact absurd hspelled.2.2 (by decide)

/-! ## A note of unknown shape -/

/-- The predicate that a note is at most the empty list. -/
def atMostEmpty : Predicate :=
  ⟨[.member "note"], .lessOrEqual, .array []⟩

/-- **Optional unknown values may have no order.** A note and a literal
that are both the empty list are equal, but the one is not at most the
other; and of a note that is a text none of the exclusive operators
holds. -/
theorem exists_unordered_note :
    ∃ clause links, compile "@.note<=[]" rowShape = .ok atMostEmpty ∧
      Clause.parse "@.note<=[]" = .ok clause ∧ Resolves rowShape clause.names links ∧
      lastShape rowShape links ≠ .any ∧ atMostEmpty.operand ≠ .null ∧
      rowShape.Fits .lenient (.object [("note", .array [])]) ∧
      atMostEmpty.field (.object [("note", .array [])]) ≠ .null ∧
      (atMostEmpty.field (.object [("note", .array [])])).scalarOrder? atMostEmpty.operand = none ∧
      atMostEmpty.holds (.object [("note", .array [])]) = false ∧
      ({ atMostEmpty with op := .equal } : Predicate).holds (.object [("note", .array [])]) = true ∧
      rowShape.Fits .lenient (.object [("note", .string "a")]) ∧
      atMostEmpty.field (.object [("note", .string "a")]) ≠ .null ∧
      ∀ op ∈ Comparison.exclusive,
        ({ atMostEmpty with op } : Predicate).holds (.object [("note", .string "a")]) = false := by
  have hparse : Clause.parse "@.note<=[]" = .ok ⟨["note"], .lessOrEqual, "[]", false⟩ :=
    Clause.parse_eq_ok_iff.2 (by decide +kernel)
  have hliteral : Json.parse? "[]" = some (.array []) := by rfl
  have hoperand : Filter.operand ⟨["note"], .lessOrEqual, "[]", false⟩ (.optional .any) =
      .ok (.array []) := by
    rw [operand_optional, if_neg (by decide), Filter.operand, if_neg nofun, hliteral]
    rfl
  have hcompile : compile "@.note<=[]" rowShape = .ok atMostEmpty :=
    compile_eq_ok_iff.2 ⟨_, hparse, ofClause_eq_ok_iff.2 ⟨_, rfl, fun _ => rfl, rfl, hoperand⟩⟩
  refine ⟨_, _, hcompile, hparse, .cons rfl .nil, nofun, nofun, ?_, nofun, rfl, rfl, rfl, ?_, nofun,
    by decide⟩
  all_goals
    simp [rowShape, Shape.Fits, Shape.RecordFits, Shape.MembersFit, Json.entryValue?_cons]

end Filter.Predicate

end PathAccess
