import Mathlib.Data.List.Induction
import Mathlib.Data.List.Nodup
import PathAccess.Shape.Basic
/-!
# Records as they are declared

A record is built by declarations that are made one after the other, in
any order and as often as one likes: members, a fallback, a reason why
there is none. On each matter the last declaration stands, whatever is
declared on other matters in between (`eq_lastDeclared?`). A member that
is declared again is taken out of its place and put at the end, so the
members stand in the order of their last declarations. Looking up a name
finds the first of its members; as there is just one, that is the last
that was declared.
-/

namespace PathAccess.Record

variable {σ β : Type}

/-! ## Declarations -/

/-- One declaration on a record. -/
inductive Declaration (σ : Type) where
  | member (name : String) (shape : σ)
  | fallback (value : Json)
  | fallbackError (reason : String)

namespace Declaration

/-- The shape that is declared for the members of a name. -/
def shapeOf? (name : String) : Declaration σ → Option σ
  | member n shape => if n = name then some shape else none
  | _ => none

/-- The fallback that is declared. -/
def fallback? : Declaration σ → Option Json
  | fallback value => some value
  | _ => none

/-- The reason that is declared. -/
def fallbackError? : Declaration σ → Option String
  | fallbackError reason => some reason
  | _ => none

end Declaration

/-- Makes a declaration. -/
def declare (r : Record σ) : Declaration σ → Record σ
  | .member name shape => r.addMember name shape
  | .fallback value => r.withFallback value
  | .fallbackError reason => r.withFallbackError reason

/-- The record of a name on which declarations are made in order. -/
def ofDeclarations (name : String) (ds : List (Declaration σ)) : Record σ :=
  ds.foldl declare (new name)

/-- What the last declaration on a matter declares, where there is one. -/
def lastDeclared? (on : Declaration σ → Option β) (ds : List (Declaration σ)) : Option β :=
  (ds.filterMap on).getLast?

/-- The last declaration of a member of the name stands at the position. -/
def LastAt (ds : List (Declaration σ)) (name : String) (i : Nat) : Prop :=
  (∃ shape, ds[i]? = some (.member name shape)) ∧
    ∀ j shape, i < j → ds[j]? ≠ some (.member name shape)

variable {name n : String} {ds : List (Declaration σ)} {d : Declaration σ} {r : Record σ} {i : Nat}

theorem ofDeclarations_concat (name : String) (ds : List (Declaration σ)) (d : Declaration σ) :
    ofDeclarations name (ds ++ [d]) = (ofDeclarations name ds).declare d :=
  List.foldl_append

/-! ## The last declaration stands -/

theorem lastDeclared?_concat (on : Declaration σ → Option β) (ds : List (Declaration σ))
    (d : Declaration σ) : lastDeclared? on (ds ++ [d]) = (on d).or (lastDeclared? on ds) := by
  rw [lastDeclared?, List.filterMap_append, List.getLast?_append]
  cases hd : on d <;> simp [hd, lastDeclared?]

/-- **On each matter the last declaration stands.** It is enough that a
new record holds nothing on it, and that a declaration replaces what the
record holds if it is on the matter, and leaves it alone if it is not. -/
theorem eq_lastDeclared? (view : Record σ → Option β) (on : Declaration σ → Option β)
    (hnew : view (new name) = none)
    (hstep : ∀ (r : Record σ) d, view (r.declare d) = (on d).or (view r)) :
    view (ofDeclarations name ds) = lastDeclared? on ds := by
  induction ds using List.reverseRecOn with
  | nil => exact hnew
  | append_singleton ds d ih => rw [ofDeclarations_concat, hstep, ih, lastDeclared?_concat]

/-- A member that is added is found, and the others are as before. -/
theorem member?_addMember (r : Record σ) (name n : String) (shape : σ) :
    (r.addMember name shape).member? n = if name = n then some shape else r.member? n := by
  by_cases h : name = n
  · have hgone : (r.members.filter fun m => m.1 != name).find? (fun m => m.1 == n) = none := by
      simp [h]
    rw [member?, addMember, List.find?_append, hgone, if_pos h]
    simp [h]
  · have hkept : (r.members.filter fun m => m.1 != name).find? (fun m => m.1 == n) =
        r.members.find? fun m => m.1 == n := by
      rw [List.find?_filter]
      congr 1
      funext m
      by_cases hm : m.1 = n <;> simp [hm, Ne.symm h]
    rw [member?, addMember, List.find?_append, hkept, if_neg h]
    simp [member?, h]

theorem member?_declare (r : Record σ) (d : Declaration σ) :
    (r.declare d).member? n = (d.shapeOf? n).or (r.member? n) := by
  cases d with
  | member name shape =>
    rw [declare, member?_addMember, Declaration.shapeOf?]
    split <;> rfl
  | fallback => rfl
  | fallbackError => rfl

theorem fallback_declare (r : Record σ) (d : Declaration σ) :
    (r.declare d).fallback = d.fallback?.or r.fallback := by
  cases d <;> rfl

theorem fallbackError_declare (r : Record σ) (d : Declaration σ) :
    (r.declare d).fallbackError = d.fallbackError?.or r.fallbackError := by
  cases d <;> rfl

theorem name_declare (r : Record σ) (d : Declaration σ) : (r.declare d).name = r.name := by
  cases d <;> rfl

theorem name_ofDeclarations (name : String) (ds : List (Declaration σ)) :
    (ofDeclarations name ds).name = name := by
  induction ds using List.reverseRecOn with
  | nil => rfl
  | append_singleton ds d ih => rw [ofDeclarations_concat, name_declare, ih]

/-! ## The order of the members -/

theorem LastAt.lt_length (h : LastAt ds n i) : i < ds.length := by
  obtain ⟨⟨shape, hi⟩, -⟩ := h
  exact (List.getElem?_eq_some_iff.1 hi).1

/-- A declaration on another matter leaves the last one where it is. -/
theorem LastAt.concat (h : LastAt ds n i) (hd : d.shapeOf? n = none) :
    LastAt (ds ++ [d]) n i := by
  have hlength := h.lt_length
  obtain ⟨⟨shape, hi⟩, hlater⟩ := h
  refine ⟨⟨shape, ?_⟩, fun j other hj hother => ?_⟩
  · rw [List.getElem?_append_left hlength, hi]
  · rcases Nat.lt_trichotomy j ds.length with hlt | rfl | hgt
    · rw [List.getElem?_append_left hlt] at hother
      exact hlater j other hj hother
    · rw [List.getElem?_concat_length] at hother
      cases hother
      simp [Declaration.shapeOf?] at hd
    · rw [List.getElem?_eq_none (by simp; omega)] at hother
      cases hother

/-- A member that is declared now is declared last. -/
theorem lastAt_length (ds : List (Declaration σ)) (n : String) (shape : σ) :
    LastAt (ds ++ [.member n shape]) n ds.length := by
  refine ⟨⟨shape, List.getElem?_concat_length⟩, fun j other hj hother => ?_⟩
  rw [List.getElem?_eq_none (by simp; omega)] at hother
  cases hother

/-- **The members of a record after some declarations**: no two of a
name, each declared, and in the order of their last declarations. -/
structure Ordered (ds : List (Declaration σ)) (members : List (String × σ)) : Prop where
  nodup : (members.map Prod.fst).Nodup
  declared : ∀ m ∈ members, ∃ i, LastAt ds m.1 i
  inOrder : members.Pairwise fun a b => ∃ i j, i < j ∧ LastAt ds a.1 i ∧ LastAt ds b.1 j

namespace Ordered

variable {members kept : List (String × σ)}

theorem sublist (h : Ordered ds members) (hsub : kept.Sublist members) : Ordered ds kept where
  nodup := h.nodup.sublist (hsub.map Prod.fst)
  declared := fun m hm => h.declared m (hsub.subset hm)
  inOrder := h.inOrder.sublist hsub

/-- A declaration on none of the members leaves them in order. -/
theorem concat (h : Ordered ds members) (hd : ∀ m ∈ members, d.shapeOf? m.1 = none) :
    Ordered (ds ++ [d]) members where
  nodup := h.nodup
  declared := by
    intro m hm
    obtain ⟨i, hi⟩ := h.declared m hm
    exact ⟨i, hi.concat (hd m hm)⟩
  inOrder := by
    refine h.inOrder.imp_of_mem ?_
    rintro a b ha hb ⟨i, j, hij, hi, hj⟩
    exact ⟨i, j, hij, hi.concat (hd a ha), hj.concat (hd b hb)⟩

/-- **A member that is declared again** goes to the end. -/
theorem addMember (h : Ordered ds r.members) (n : String) (shape : σ) :
    Ordered (ds ++ [.member n shape]) (r.addMember n shape).members := by
  have hne : ∀ m ∈ r.members.filter (fun m => m.1 != n), m.1 ≠ n := fun m hm =>
    bne_iff_ne.1 (List.mem_filter.1 hm).2
  have hsub := h.sublist (List.filter_sublist (p := fun m => m.1 != n))
  have hkept := hsub.concat (d := .member n shape) fun m hm => if_neg (hne m hm).symm
  refine ⟨?_, ?_, ?_⟩
  · rw [Record.addMember, List.map_append]
    refine hkept.nodup.append (List.nodup_singleton n) (List.disjoint_singleton.2 fun hmem => ?_)
    obtain ⟨m, hm, hname⟩ := List.mem_map.1 hmem
    exact hne m hm hname
  · refine List.forall_mem_append.2 ⟨hkept.declared, List.forall_mem_singleton.2 ?_⟩
    exact ⟨ds.length, lastAt_length ds n shape⟩
  · refine List.pairwise_append.2 ⟨hkept.inOrder, List.pairwise_singleton _ _, ?_⟩
    intro a ha b hb
    obtain ⟨i, hi⟩ := hsub.declared a ha
    obtain rfl := List.mem_singleton.1 hb
    exact ⟨i, ds.length, hi.lt_length, hi.concat (if_neg (hne a ha).symm), lastAt_length ds n shape⟩

/-- **Every declaration keeps the order.** -/
theorem declare (h : Ordered ds r.members) (d : Declaration σ) :
    Ordered (ds ++ [d]) (r.declare d).members := by
  cases d with
  | member n shape => exact h.addMember n shape
  | fallback => exact h.concat fun _ _ => rfl
  | fallbackError => exact h.concat fun _ _ => rfl

end Ordered

theorem ordered_ofDeclarations (name : String) (ds : List (Declaration σ)) :
    Ordered ds (ofDeclarations name ds).members := by
  induction ds using List.reverseRecOn with
  | nil => exact ⟨List.nodup_nil, nofun, .nil⟩
  | append_singleton ds d ih => exact ofDeclarations_concat name ds d ▸ ih.declare d

/-- **The last declarations make the record.** No two members have a
name. What a name is looked up as is the shape of its last declaration,
and nothing if it was never declared; and the members stand in the order
of these declarations. The name of the record stays, and so do the last
fallback and the last reason, whatever was declared in between. -/
theorem ofDeclarations_last_wins (name : String) (ds : List (Declaration σ)) :
    ((ofDeclarations name ds).members.map Prod.fst).Nodup ∧
      (∀ n, (ofDeclarations name ds).member? n = lastDeclared? (Declaration.shapeOf? n) ds) ∧
      ((ofDeclarations name ds).members.Pairwise fun a b =>
        ∃ i j, i < j ∧ LastAt ds a.1 i ∧ LastAt ds b.1 j) ∧
      (ofDeclarations name ds).name = name ∧
      (ofDeclarations name ds).fallback = lastDeclared? Declaration.fallback? ds ∧
      (ofDeclarations name ds).fallbackError = lastDeclared? Declaration.fallbackError? ds := by
  have hordered := ordered_ofDeclarations name ds
  refine ⟨hordered.nodup, fun n => ?_, hordered.inOrder, name_ofDeclarations name ds, ?_, ?_⟩
  · exact eq_lastDeclared? (fun r => r.member? n) _ rfl member?_declare
  · exact eq_lastDeclared? fallback _ rfl fallback_declare
  · exact eq_lastDeclared? fallbackError _ rfl fallbackError_declare

/-! ## Described records -/

/-- The declaration of a default instance, by its JSON form or by the
reason why it has none. -/
def Declaration.ofDefault : Except String Json → Declaration σ
  | .ok value => .fallback value
  | .error reason => .fallbackError (Text.settlePlace reason)

theorem describe_eq_ofDeclarations (name : String) (members : List (String × σ)) :
    describe name members = ofDeclarations name (members.map fun m => .member m.1 m.2) := by
  rw [ofDeclarations, List.foldl_map]
  rfl

/-- **A described record is built by declarations too**: of its members,
and then of its default instance. -/
theorem withDefault_describe (name : String) (members : List (String × σ))
    (default : Except String Json) :
    (describe name members).withDefault default =
      ofDeclarations name
        (members.map (fun m => .member m.1 m.2) ++ [.ofDefault default]) := by
  rw [ofDeclarations_concat, ← describe_eq_ofDeclarations]
  cases default <;> rfl

/-- So of the members listed under a name the last one is found. -/
theorem member?_describe (name n : String) (members : List (String × σ)) :
    (describe name members).member? n =
      ((members.filter fun m => m.1 == n).map Prod.snd).getLast? := by
  have hlisted : members.filterMap (fun m => (Declaration.member m.1 m.2).shapeOf? n) =
      (members.filter fun m => m.1 == n).map Prod.snd := by
    rw [← List.filterMap_eq_filter, List.map_filterMap]
    congr 1
    funext m
    by_cases hm : m.1 = n <;> simp [Declaration.shapeOf?, Option.guard, hm]
  calc (describe name members).member? n
      = lastDeclared? (Declaration.shapeOf? n) (members.map fun m => .member m.1 m.2) := by
        rw [describe_eq_ofDeclarations]
        exact eq_lastDeclared? (fun r => r.member? n) _ rfl member?_declare
    _ = ((members.filter fun m => m.1 == n).map Prod.snd).getLast? := by
        rw [lastDeclared?, List.filterMap_map, ← hlisted]
        rfl

example : (describe "Row" [("a", Shape.text), ("b", .integer), ("a", .bool)]).members =
    [("b", .integer), ("a", .bool)] := rfl

end PathAccess.Record
