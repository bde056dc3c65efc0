import PathAccess.Proofs.Chain.NullRoot
/-!
# Reading a fallback as the requested type

Where a null-safe chain ends at a null, its result is the fallback of its
final shape, and the requested type has to read it. Three tables meet
there: the shape that a type publishes, the fallback of a shape, and what
the type reads. The check of the result is the link between them: a shape
that converts to another has its fallback, up to the kind of a zero
(`Supplied.of_convertsTo`).

Two types do not read the fallback of the shape they publish. A text of
one character is published as a text, and a list of fixed length as a
list, and the fallback of either is empty.
-/

namespace PathAccess

open Shape

variable {s b : Shape} {d j : Json} {t : ResultType} {m : Mismatch}

/-! ## What a guard puts in -/

/-- A value that a guard may put in where a result is read as a shape. Of
records nothing is said: each declares its own. -/
inductive Supplied : Shape → Json → Prop where
  /-- Nothing is asked of the result. -/
  | anything {d : Json} : d ≠ .null → Supplied .any d
  /-- The fallback of the shape. -/
  | own {b : Shape} {d : Json} :
      (∀ r, b ≠ .record r) → d ≠ .null → b.fallback = .ok d → Supplied b d
  /-- Integers widen to doubles, and so does their zero. -/
  | widened : Supplied .float .zero

namespace Supplied

theorem ne_null (h : Supplied b d) : d ≠ .null := by
  cases h with
  | anything hd => exact hd
  | own _ hd _ => exact hd
  | widened => exact nofun

/-- But for `any` and a double, what is supplied is the fallback. -/
theorem eq_fallback {x : Json} (h : Supplied b d) (hany : b ≠ .any) (hfloat : b ≠ .float)
    (hx : b.fallback = .ok x) : x = d := by
  cases h with
  | anything => exact absurd rfl hany
  | own _ _ hd => exact Except.ok.inj (hx.symm.trans hd)
  | widened => exact absurd rfl hfloat

/-- What is supplied for a double is a number. -/
theorem exists_number (h : Supplied .float d) : ∃ n, d = .number n := by
  cases h with
  | own _ _ hd =>
    cases hd
    exact ⟨_, rfl⟩
  | widened => exact ⟨_, rfl⟩

/-- Nothing is supplied for a record. -/
theorem ne_record (h : Supplied b d) (r : Record Shape) : b ≠ .record r := by
  cases h with
  | anything => exact nofun
  | own hb _ _ => exact hb r
  | widened => exact nofun

/-- **A shape that converts supplies its target.** -/
theorem of_convertsTo (h : s.nonNull.convertsTo b.nonNull = true) (hany : s.nonNull ≠ .any)
    (hrecord : ∀ r, s.nonNull ≠ .record r) (hd : s.fallback = .ok d) :
    Supplied b.nonNull d := by
  rw [← fallback_nonNull] at hd
  have hs := nonNull_ne_optional s
  have hb := nonNull_ne_optional b
  generalize s.nonNull = s at *
  generalize b.nonNull = b at *
  have hne : d ≠ .null := by
    rintro rfl
    cases s <;> simp_all [fallback, Json.zero, Json.floatZero]
  have htarget : b = .any ∨ ((∀ r, b ≠ .record r) ∧ b.fallback = .ok d) ∨
      b = .float ∧ d = .zero := by
    cases s <;> cases b <;> simp_all [convertsTo, same, fallback]
  rcases htarget with rfl | ⟨hr, hfallback⟩ | ⟨rfl, rfl⟩
  · exact .anything hne
  · exact .own hr hne hfallback
  · exact .widened

end Supplied

/-- Zero is in the range of every integer type. -/
theorem IntegerType.zero_mem (i : IntegerType) : i.low ≤ 0 ∧ 0 ≤ i.high := by
  have hpow (k : Nat) : (0 : Int) < 2 ^ k := Int.pow_pos (by decide)
  have hsigned := hpow (i.bits - 1)
  have hunsigned := hpow i.bits
  simp only [low, high]
  split <;> constructor <;> omega

namespace ResultType

/-! ## What a type makes of it -/

/-- Why a type does not read the fallback of the shape it publishes, if
it does not. -/
def refusal? : ResultType → Option Mismatch
  | character => some (.notOneCharacter "")
  | array _ size => if size = 0 then none else some (.tooShort 0 size)
  | optional inner => inner.refusal?
  | _ => none

/-- An optional type reads what is not null as the type inside it. -/
theorem decode_optional_of_ne_null (hj : j ≠ .null) :
    (optional t).decode j = (t.decode j).map some := by
  cases j with
  | null => exact absurd rfl hj
  | _ => rfl

theorem decode_integer_zero (i : IntegerType) : (integer i).decode .zero = .ok .zero := by
  rw [decode]
  exact if_pos i.zero_mem

/-- Without items a list of fixed length is too short, unless it is to be
empty. -/
theorem decode_array_nil (t : ResultType) (size : Nat) :
    (array t size).decode (.array []) =
      if size = 0 then .ok [] else .error (.tooShort 0 size) := by
  cases size <;> rfl

/-- **A type reads what is supplied, or refuses it for the one reason it
has.** -/
theorem decode_of_supplied (h : Supplied t.shape.nonNull d) :
    (t.refusal? = none → ∃ v, t.decode d = .ok v) ∧
      ∀ m, t.refusal? = some m → t.decode d = .error m := by
  induction t with
  | json shape => exact ⟨fun _ => ⟨d, rfl⟩, nofun⟩
  | optional inner ih =>
    rw [shape, nonNull_ofOptional] at h
    obtain ⟨hread, hrefuse⟩ := ih h
    rw [decode_optional_of_ne_null h.ne_null]
    refine ⟨fun hr => ?_, fun m hm => ?_⟩
    · obtain ⟨v, hv⟩ := hread hr
      exact ⟨some v, by rw [hv]; rfl⟩
    · rw [hrefuse m hm]
      rfl
  | record r check => exact absurd rfl (h.ne_record r)
  | character =>
    obtain rfl := h.eq_fallback (b := .text) nofun nofun rfl
    exact ⟨nofun, fun m hm => congrArg Except.error (Option.some.inj hm)⟩
  | array element size =>
    obtain rfl := h.eq_fallback (b := .list element.shape) nofun nofun rfl
    rw [refusal?, decode_array_nil]
    split
    · exact ⟨fun _ => ⟨[], rfl⟩, nofun⟩
    · exact ⟨nofun, fun m hm => congrArg Except.error (Option.some.inj hm)⟩
  | bool =>
    obtain rfl := h.eq_fallback (b := .bool) nofun nofun rfl
    exact ⟨fun _ => ⟨_, rfl⟩, nofun⟩
  | integer i =>
    obtain rfl := h.eq_fallback (b := .integer) nofun nofun rfl
    exact ⟨fun _ => ⟨_, decode_integer_zero i⟩, nofun⟩
  | float =>
    obtain ⟨n, rfl⟩ := h.exists_number
    exact ⟨fun _ => ⟨_, rfl⟩, nofun⟩
  | single =>
    obtain ⟨n, rfl⟩ := h.exists_number
    exact ⟨fun _ => ⟨_, rfl⟩, nofun⟩
  | text =>
    obtain rfl := h.eq_fallback (b := .text) nofun nofun rfl
    exact ⟨fun _ => ⟨_, rfl⟩, nofun⟩
  | list element =>
    obtain rfl := h.eq_fallback (b := .list element.shape) nofun nofun rfl
    exact ⟨fun _ => ⟨_, rfl⟩, nofun⟩
  | map value =>
    obtain rfl := h.eq_fallback (b := .map value.shape) nofun nofun rfl
    exact ⟨fun _ => ⟨_, rfl⟩, nofun⟩

end ResultType

/-! ## Typed accessors -/

namespace Accessor

variable {policy : UnsupportedPolicy} {root : Shape} {path : String} {c : Chain} {a : Accessor}
  {document : Json} {p : Plan}

/-- A null reference of a long chain is the fallback of the guarded one. -/
theorem value_of_nullReference (hchain : (Chain.ofPath policy root path).outcome = .ok c)
    (ha : (compile ⟨true, policy⟩ root path).outcome = .ok a) (hlen : 2 ≤ c.links.length)
    (hroot : document ≠ .null) (hnull : c.plan.value document = .error (.nullReference p)) :
    ∃ d, c.finalShape.fallback = .ok d ∧ a.value document = .ok d := by
  obtain ⟨rfl, hlinks⟩ := Chain.linked_of_ofPath hchain
  obtain ⟨hg, -⟩ := guarded_of_compile hchain ha
  obtain ⟨d, hd, hplan⟩ := Chain.fallback_of_guarded hlen hg
  refine ⟨d, hd, Plan.value_eq_ok_iff.2 ⟨.constant d, ?_, rfl⟩⟩
  rw [hplan, Chain.evaluate_guarded hlinks hroot, Plan.value_eq_error_iff.1 hnull]
  rfl

/-- **A fallback is read as the requested type, or refused for what the
type alone tells.** Where a null-safe accessor of two links or more is
compiled for a type, and its plain plan has a null reference on a root
other than null: the fallback of the final shape is what is read, and the
type reads it unless it is a character or a list of a fixed length other
than zero, or optional around one. -/
theorem valueAs_of_nullReference (hchain : (Chain.ofPath policy root path).outcome = .ok c)
    (ha : (compileAs ⟨true, policy⟩ t.shape root path).outcome = .ok a)
    (hlen : 2 ≤ c.links.length) (hany : c.finalShape.nonNull ≠ .any)
    (hrecord : ∀ r, c.finalShape.nonNull ≠ .record r) (hroot : document ≠ .null)
    (hnull : c.plan.value document = .error (.nullReference p)) :
    ∃ d, c.finalShape.fallback = .ok d ∧ a.value document = .ok d ∧
      (t.refusal? = none → ∃ v, t.decode d = .ok v ∧ a.valueAs t document = .ok v) ∧
      ∀ m, t.refusal? = some m → a.valueAs t document = .error (.notDecoded m) := by
  obtain ⟨ha, hcheck⟩ := compile_of_compileAs ha
  obtain ⟨d, hd, hvalue⟩ := value_of_nullReference hchain ha hlen hroot hnull
  rw [(guarded_of_compile hchain ha).2] at hcheck
  have hsupplied : Supplied t.shape.nonNull d :=
    .of_convertsTo (convertsTo_of_checkResult hcheck hany) hany hrecord hd
  obtain ⟨hread, hrefuse⟩ := ResultType.decode_of_supplied hsupplied
  refine ⟨d, hd, hvalue, fun hr => ?_, fun m hm => ?_⟩
  · obtain ⟨v, hv⟩ := hread hr
    exact ⟨v, hv, by rw [valueAs, hvalue]; simp only [hv]⟩
  · rw [valueAs, hvalue]
    simp only [hrefuse m hm]

/-! ## A status that is missing -/

/-- The path to a status compiles for every type that a text converts to. -/
theorem outcome_compileAs_optionalStock {requested : Shape}
    (h : checkResult .text requested = .ok ()) :
    (compileAs ⟨true, .reject⟩ requested optionalStockShape
      ".items[?(@.Type=='3')].Status").outcome = .ok optionalStatus := by
  rw [compileAs, Traced.outcome_bind, outcome_compile_optionalStock]
  simp [optionalStatus, h]

/-- Without the item the plain chain dereferences null. -/
theorem value_optionalStatusChain_otherStock :
    optionalStatusChain.plan.value Chain.otherStock =
      .error (.nullReference optionalStatusChain.plan) :=
  rfl

/-- Read as a text or none, the missing status is a text, the empty one. -/
theorem valueAs_of_nullReference_text :
    (compileAs ⟨true, .reject⟩ (ResultType.optional .text).shape optionalStockShape
        ".items[?(@.Type=='3')].Status").outcome = .ok optionalStatus ∧
      2 ≤ optionalStatusChain.links.length ∧ optionalStatusChain.finalShape.nonNull = .text ∧
      Chain.otherStock ≠ .null ∧
      optionalStatusChain.plan.value Chain.otherStock =
        .error (.nullReference optionalStatusChain.plan) ∧
      optionalStatus.valueAs (.optional .text) Chain.otherStock = .ok (some "") := by
  have hcompile : (compileAs ⟨true, .reject⟩ (ResultType.optional .text).shape optionalStockShape
      ".items[?(@.Type=='3')].Status").outcome = .ok optionalStatus :=
    outcome_compileAs_optionalStock rfl
  have hlen : 2 ≤ optionalStatusChain.links.length := by decide
  obtain ⟨d, hd, -, hread, -⟩ := valueAs_of_nullReference outcome_ofPath_optionalStock hcompile
    hlen nofun nofun Chain.otherStock_ne_null value_optionalStatusChain_otherStock
  obtain ⟨v, hv, hvalue⟩ := hread rfl
  cases hd
  cases hv
  exact ⟨hcompile, hlen, rfl, Chain.otherStock_ne_null, value_optionalStatusChain_otherStock,
    hvalue⟩

/-- **A character refuses the fallback of the text it is published as**,
though it compiles. -/
theorem character_refuses_fallback :
    (compileAs ⟨true, .reject⟩ ResultType.character.shape optionalStockShape
        ".items[?(@.Type=='3')].Status").outcome = .ok optionalStatus ∧
      2 ≤ optionalStatusChain.links.length ∧ optionalStatusChain.finalShape.nonNull = .text ∧
      Chain.otherStock ≠ .null ∧
      optionalStatusChain.plan.value Chain.otherStock =
        .error (.nullReference optionalStatusChain.plan) ∧
      optionalStatusChain.finalShape.fallback = .ok (.string "") ∧
      optionalStatus.valueAs .character Chain.otherStock =
        .error (.notDecoded (.notOneCharacter "")) :=
  ⟨outcome_compileAs_optionalStock rfl, by decide, rfl, Chain.otherStock_ne_null,
    value_optionalStatusChain_otherStock, rfl, rfl⟩

end Accessor

end PathAccess
