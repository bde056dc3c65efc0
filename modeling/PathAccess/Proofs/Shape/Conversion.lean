import PathAccess.Proofs.Chain.NullSafety
import PathAccess.Proofs.Compilation
import PathAccess.Proofs.Shape.Part
/-!
# Conversion between shapes is a sound preorder

Every shape converts to itself, and conversions go on from each other. A
conversion is sound: what fits the source fits the target. Records are
the one exception, since they convert by name alone. They are taken for
the same where the two shapes agree on names, that is, where a record of
the one and a record of the other that share a name are the same.

Conversion peels the target layer by layer, and the equality of shapes
that it tries first is no rule of its own: what is the same part by part
converts part by part. So there is one law for each kind of target, and
the proofs are inductions on the target. Only an optional target is
looked at together with its source, which may be optional or not: one
layer of the source goes with one layer of the target (`peel`).
-/

namespace PathAccess.Shape

variable {a b c s t : Shape} {r r' : Record Shape} {j : Json} {rule : NullRule}

/-! ## The conversions to each kind of target -/

section

-- the laws of this section are the tables of both functions, kind by kind
attribute [local simp] convertsTo same

theorem convertsTo_of_same (h : s.same t = true) : s.convertsTo t = true := by
  cases t <;> simp [h]

theorem convertsTo_any (s : Shape) : s.convertsTo any = true := by
  simp

theorem convertsTo_bool_iff : s.convertsTo bool = true ↔ s = bool := by
  cases s <;> simp

theorem convertsTo_integer_iff : s.convertsTo integer = true ↔ s = integer := by
  cases s <;> simp

/-- Integers widen. -/
theorem convertsTo_float_iff : s.convertsTo float = true ↔ s = float ∨ s = integer := by
  cases s <;> simp

theorem convertsTo_text_iff : s.convertsTo text = true ↔ s = text := by
  cases s <;> simp

theorem convertsTo_list_iff :
    s.convertsTo (list t) = true ↔ ∃ element, s = list element ∧ element.convertsTo t = true := by
  cases s with
  | list element => simpa using convertsTo_of_same
  | _ => simp

theorem convertsTo_map_iff :
    s.convertsTo (map t) = true ↔ ∃ value, s = map value ∧ value.convertsTo t = true := by
  cases s with
  | map value => simpa using convertsTo_of_same
  | _ => simp

/-- Records that are the same have one name. -/
theorem name_eq_of_sameRecord (h : sameRecord r r' = true) : r.name = r'.name := by
  obtain ⟨name, members, fallback, reason⟩ := r
  simp only [sameRecord, Bool.and_eq_true, beq_iff_eq] at h
  exact h.1.1.1

/-- Records convert by name. -/
theorem convertsTo_record_iff :
    s.convertsTo (record r) = true ↔ ∃ r', s = record r' ∧ r'.name = r.name := by
  cases s with
  | record source => simpa using name_eq_of_sameRecord
  | _ => simp

/-- The shape under its first optional layer, if it has one. -/
def peel : Shape → Shape
  | optional inner => inner
  | s => s

/-- **A layer of the target takes a layer of the source with it**, where
there is one. -/
theorem convertsTo_optional (s t : Shape) :
    s.convertsTo (optional t) = s.peel.convertsTo t := by
  cases s with
  | optional inner =>
    rw [Bool.eq_iff_iff]
    simp only [convertsTo, same, peel, Bool.or_eq_true]
    exact ⟨fun h => h.elim convertsTo_of_same id, .inr⟩
  | _ => simp [peel]

/-- A conversion holds under the first layers too: what an optional shape
converts to is optional as well, or `any`. -/
theorem peel_convertsTo_peel (h : s.convertsTo t = true) : s.peel.convertsTo t.peel = true := by
  cases t with
  | optional inner => exact (convertsTo_optional s inner).symm.trans h
  | any => exact convertsTo_any _
  | _ => cases s <;> first | exact h | simp at h

end

/-! ## The preorder -/

/-- **Every shape converts to itself.** -/
theorem convertsTo_self (s : Shape) : s.convertsTo s = true := by
  induction s using partInduction with
  | bool => rfl
  | integer => rfl
  | float => rfl
  | text => rfl
  | any => rfl
  | list element ih => exact convertsTo_list_iff.2 ⟨element, rfl, ih⟩
  | map value ih => exact convertsTo_map_iff.2 ⟨value, rfl, ih⟩
  | optional inner ih => exact (convertsTo_optional _ inner).trans ih
  | record r _ => exact convertsTo_record_iff.2 ⟨r, rfl, rfl⟩

/-- **Conversions go on from each other**, by induction on the last
target. -/
theorem convertsTo_trans (hab : a.convertsTo b = true) (hbc : b.convertsTo c = true) :
    a.convertsTo c = true := by
  induction c using partInduction generalizing a b with
  | bool =>
    obtain rfl := convertsTo_bool_iff.1 hbc
    exact hab
  | integer =>
    obtain rfl := convertsTo_integer_iff.1 hbc
    exact hab
  | float =>
    rcases convertsTo_float_iff.1 hbc with rfl | rfl
    · exact hab
    · exact convertsTo_float_iff.2 (.inr (convertsTo_integer_iff.1 hab))
  | text =>
    obtain rfl := convertsTo_text_iff.1 hbc
    exact hab
  | any => exact convertsTo_any a
  | list element ih =>
    obtain ⟨middle, rfl, hmiddle⟩ := convertsTo_list_iff.1 hbc
    obtain ⟨source, rfl, hsource⟩ := convertsTo_list_iff.1 hab
    exact convertsTo_list_iff.2 ⟨source, rfl, ih hsource hmiddle⟩
  | map value ih =>
    obtain ⟨middle, rfl, hmiddle⟩ := convertsTo_map_iff.1 hbc
    obtain ⟨source, rfl, hsource⟩ := convertsTo_map_iff.1 hab
    exact convertsTo_map_iff.2 ⟨source, rfl, ih hsource hmiddle⟩
  | optional inner ih =>
    rw [convertsTo_optional] at hbc ⊢
    exact ih (peel_convertsTo_peel hab) hbc
  | record r _ =>
    obtain ⟨middle, rfl, hmiddle⟩ := convertsTo_record_iff.1 hbc
    obtain ⟨source, rfl, hsource⟩ := convertsTo_record_iff.1 hab
    exact convertsTo_record_iff.2 ⟨source, rfl, hsource.trans hmiddle⟩

/-! ## What the same shapes are fitted by -/

/-- Members that are the same one by one are fitted by the same
entries. -/
theorem membersFit_iff_of_same {members members' : List (String × Shape)}
    {entries : List (String × Json)}
    (hfits : ∀ m ∈ members, ∀ t j, m.2.same t = true → (m.2.Fits rule j ↔ t.Fits rule j))
    (h : sameMembers members members' = true) :
    MembersFit rule members entries ↔ MembersFit rule members' entries := by
  induction members generalizing members' with
  | nil =>
    cases members' with
    | nil => exact Iff.rfl
    | cons m' members' => cases h
  | cons m members ih =>
    obtain ⟨hm, hmembers⟩ := List.forall_mem_cons.1 hfits
    cases members' with
    | nil => cases h
    | cons m' members' =>
      simp only [sameMembers, Bool.and_eq_true, beq_iff_eq] at h
      obtain ⟨⟨hname, hshape⟩, hrest⟩ := h
      simp only [MembersFit, ← hname]
      exact and_congr (hm _ _ hshape) (ih hmembers hrest)

/-- So are records that are the same. -/
theorem recordFits_iff_of_same {entries : List (String × Json)}
    (hfits : ∀ m ∈ r.members, ∀ t j, m.2.same t = true → (m.2.Fits rule j ↔ t.Fits rule j))
    (h : sameRecord r r' = true) : RecordFits rule r entries ↔ RecordFits rule r' entries := by
  obtain ⟨name, members, fallback, reason⟩ := r
  cases r'
  simp only [sameRecord, Bool.and_eq_true] at h
  exact membersFit_iff_of_same hfits h.1.1.2

/-- **Shapes that are the same are fitted by the same values.** -/
theorem fits_iff_of_same (h : s.same t = true) : s.Fits rule j ↔ t.Fits rule j := by
  induction s using partInduction generalizing t j with
  | list element ih =>
    cases t with
    | list element' =>
      have hitems : ∀ i, element.Fits rule i ↔ element'.Fits rule i := fun _ => ih h
      simp only [Fits, hitems]
    | _ => cases h
  | map value ih =>
    cases t with
    | map value' =>
      have hvalues : ∀ v, value.Fits rule v ↔ value'.Fits rule v := fun _ => ih h
      simp only [Fits, hvalues]
    | _ => cases h
  | optional inner ih =>
    cases t with
    | optional inner' =>
      have hinner : inner.Fits rule j ↔ inner'.Fits rule j := ih h
      simp only [Fits, hinner]
    | _ => cases h
  | record r ih =>
    cases t with
    | record r' =>
      have hentries : ∀ entries, RecordFits rule r entries ↔ RecordFits rule r' entries :=
        fun _ => recordFits_iff_of_same (fun m hm _ _ => ih m hm) h
      simp only [Fits, hentries]
    | _ => cases h
  | _ => cases t <;> first | exact Iff.rfl | cases h

/-! ## Soundness -/

/-- **Agreement on names**: a record of the one shape and a record of the
other, at any depth, are the same if they share a name. -/
def NamesAgree (a b : Shape) : Prop :=
  ∀ r r', Part (record r) a → Part (record r') b → r.name = r'.name → sameRecord r r' = true

theorem NamesAgree.of_part (h : NamesAgree a b) (hs : Part s a) (ht : Part t b) :
    NamesAgree s t :=
  fun r r' hr hr' => h r r' (hr.trans hs) (hr'.trans ht)

theorem part_peel (s : Shape) : Part s.peel s := by
  cases s with
  | optional inner => exact .inner (.refl _)
  | _ => exact .refl _

/-- An optional layer only adds null. -/
theorem fits_peel (h : s.Fits rule j) (hne : j ≠ .null) : s.peel.Fits rule j := by
  cases s with
  | optional inner => exact h.resolve_left hne
  | _ => exact h

/-- **What fits the source of a conversion fits its target**, if the two
agree on names. The induction is on the target. -/
theorem fits_of_convertsTo (h : a.convertsTo b = true) (hnames : NamesAgree a b)
    (hj : a.Fits rule j) : b.Fits rule j := by
  induction b using partInduction generalizing a j with
  | bool =>
    obtain rfl := convertsTo_bool_iff.1 h
    exact hj
  | integer =>
    obtain rfl := convertsTo_integer_iff.1 h
    exact hj
  | float =>
    rcases convertsTo_float_iff.1 h with rfl | rfl
    · exact hj
    · obtain ⟨n, rfl⟩ := hj
      exact ⟨_, rfl⟩
  | text =>
    obtain rfl := convertsTo_text_iff.1 h
    exact hj
  | any => trivial
  | list element ih =>
    obtain ⟨source, rfl, hsource⟩ := convertsTo_list_iff.1 h
    have hnames' := hnames.of_part (.element (.refl _)) (.element (.refl _))
    rcases hj with hnull | ⟨items, rfl, hitems⟩
    · exact .inl hnull
    · exact .inr ⟨items, rfl, fun i hi => ih hsource hnames' (hitems i hi)⟩
  | map value ih =>
    obtain ⟨source, rfl, hsource⟩ := convertsTo_map_iff.1 h
    have hnames' := hnames.of_part (.value (.refl _)) (.value (.refl _))
    rcases hj with hnull | ⟨entries, rfl, hentries⟩
    · exact .inl hnull
    · exact .inr ⟨entries, rfl, fun e he => ih hsource hnames' (hentries e he)⟩
  | optional inner ih =>
    rw [convertsTo_optional] at h
    by_cases hnull : j = .null
    · exact .inl hnull
    · have hnames' := hnames.of_part (part_peel a) (.inner (.refl _))
      exact .inr (ih h hnames' (fits_peel hj hnull))
  | record r _ =>
    obtain ⟨source, rfl, hname⟩ := convertsTo_record_iff.1 h
    have hsame : (record source).same (record r) = true :=
      hnames source r (.refl _) (.refl _) hname
    exact (fits_iff_of_same hsame).1 hj

/-- **A result that passes the check fits what is requested**, unless it
is null or nothing is known of it. -/
theorem fits_of_checkResult (h : checkResult a b = .ok ()) (hany : a.nonNull ≠ any)
    (hnames : NamesAgree a b) (hj : a.Fits rule j) (hne : j ≠ .null) : b.Fits rule j := by
  have hconverts := Accessor.convertsTo_of_checkResult h hany
  have hnames' := hnames.of_part (Part.nonNull a) (Part.nonNull b)
  exact fits_of_fits_nonNull (fits_of_convertsTo hconverts hnames' (fits_nonNull hj hne))

/-- **Conversion is a sound preorder.** It is reflexive and transitive on
all shapes. Where two shapes agree on names, whatever fits the one fits
every shape that it converts to; and what passes the check of a result
and is not null fits the requested shape, unless the produced shape is
`any` under its optional layers. This holds of either rule for null. -/
theorem convertsTo_sound_preorder :
    (∀ s, convertsTo s s = true) ∧
    (∀ a b c, convertsTo a b = true → convertsTo b c = true → convertsTo a c = true) ∧
    (∀ a b, NamesAgree a b → convertsTo a b = true →
      ∀ rule j, a.Fits rule j → b.Fits rule j) ∧
    ∀ produced requested, NamesAgree produced requested →
      checkResult produced requested = .ok () → produced.nonNull ≠ any →
      ∀ rule j, j ≠ .null → produced.Fits rule j → requested.Fits rule j :=
  ⟨convertsTo_self, fun _ _ _ => convertsTo_trans,
    fun _ _ hnames h _ _ => fits_of_convertsTo h hnames,
    fun _ _ hnames h hany _ _ hne hj => fits_of_checkResult h hany hnames hj hne⟩

/-! ## Items that may be missing -/

/-- The one record inside an item is the item. -/
theorem sameRecord_of_part_itemShape (h : Part (record r) Chain.itemShape)
    (h' : Part (record r') Chain.itemShape) : sameRecord r r' = true := by
  have hitem : ∀ {r}, Part (record r) Chain.itemShape → record r = Chain.itemShape := by
    rintro r (_ | _ | _ | _ | ⟨hmem, hpart⟩)
    · rfl
    · simp only [List.mem_cons, Prod.mk.injEq, List.not_mem_nil, or_false] at hmem
      rcases hmem with ⟨-, rfl⟩ | ⟨-, rfl⟩
      · cases hpart with
        | inner hpart => cases hpart
      · cases hpart
  cases hitem h
  cases hitem h'
  decide

/-- A list of items, optional as a whole, may be read as a list of
optional items, whose shape its values fit. A second layer around the
items is no obstacle either. -/
theorem convertsTo_sound_preorder_items :
    checkResult (optional (list Chain.itemShape)) (list (optional Chain.itemShape)) = .ok () ∧
      (optional (list Chain.itemShape)).Fits .strict (.array [Chain.noItem]) ∧
      (list (optional Chain.itemShape)).Fits .strict (.array [Chain.noItem]) ∧
      (list Chain.itemShape).convertsTo (list (optional (optional Chain.itemShape))) = true := by
  obtain ⟨-, htrans, hsound, hcheck⟩ := convertsTo_sound_preorder
  have hnames : NamesAgree (optional (list Chain.itemShape)) (list (optional Chain.itemShape)) := by
    rintro r r' (_ | _ | _ | hr | _) (_ | hr' | _ | _ | _) -
    rcases hr with _ | hr
    rcases hr' with _ | _ | _ | hr'
    exact sameRecord_of_part_itemShape hr hr'
  have haccepted : checkResult (optional (list Chain.itemShape))
      (list (optional Chain.itemShape)) = .ok () := rfl
  have hitem : Chain.itemShape.Fits .strict Chain.noItem := by
    simp [Chain.itemShape, Chain.noItem, Fits, RecordFits, MembersFit, Json.entryValue?_cons]
  have hitems : (optional (list Chain.itemShape)).Fits .strict (.array [Chain.noItem]) :=
    .inr (.inr ⟨_, rfl, List.forall_mem_singleton.2 hitem⟩)
  refine ⟨haccepted, hitems, ?_, ?_⟩
  · exact hcheck _ _ hnames haccepted (by simp [nonNull]) .strict _ (by simp) hitems
  · refine htrans _ (list (optional Chain.itemShape)) _ rfl ?_
    exact convertsTo_list_iff.2 ⟨_, rfl, convertsTo_self _⟩

/-! ## A result of which nothing is known -/

/-- **Under an optional layer `any` is let through as it is without
one.** A text fits it and is not null, and is no integer. -/
theorem text_accepted_for_integer :
    optional any ≠ any ∧ NamesAgree (optional any) integer ∧
      checkResult (optional any) integer = .ok () ∧
      Json.string "x" ≠ .null ∧ (optional any).Fits .strict (.string "x") ∧
      ¬ integer.Fits .strict (.string "x") := by
  refine ⟨nofun, ?_, rfl, nofun, .inr trivial, ?_⟩
  · rintro r r' - (_ | _)
  · rintro ⟨n, hn⟩
    cases hn

end PathAccess.Shape
