import Mathlib.Data.List.TakeWhile
import PathAccess.Text.Blank
/-!
# Texts without blanks at their ends

A text is trimmed already when its first and its last character are no
blanks. What trimming finds does not depend on the blanks around it, nor
on characters inside that are exchanged for others without making or
losing a blank.
-/

namespace PathAccess.Text

variable {cs before behind : List Char}

/-- Nothing is dropped where the first character is to be kept. -/
theorem dropWhile_eq_iff {p : Char → Bool} :
    cs.dropWhile p = cs ↔ ∀ c ∈ cs.head?, p c = false := by
  rw [List.dropWhile_eq_self_iff]
  cases cs <;> simp

/-- Nor at the end where the last one is. -/
theorem dropEndWhile_eq_iff {p : Char → Bool} :
    dropEndWhile p cs = cs ↔ ∀ c ∈ cs.getLast?, p c = false := by
  rw [dropEndWhile, List.reverse_eq_iff, dropWhile_eq_iff, List.head?_reverse]

theorem length_dropEndWhile_le (p : Char → Bool) (cs : List Char) :
    (dropEndWhile p cs).length ≤ cs.length := by
  rw [dropEndWhile, List.length_reverse]
  exact (List.dropWhile_suffix p).length_le.trans_eq List.length_reverse

/-- **A text is trimmed when it neither begins nor ends with a blank.** -/
theorem trim_eq_self_iff :
    trim cs = cs ↔
      (∀ c ∈ cs.head?, isBlank c = false) ∧ ∀ c ∈ cs.getLast?, isBlank c = false := by
  rw [← dropWhile_eq_iff, ← dropEndWhile_eq_iff]
  constructor
  · intro h
    have hstart : cs.dropWhile isBlank = cs := by
      refine (List.dropWhile_suffix isBlank).eq_of_length_le ?_
      calc cs.length = (trim cs).length := by rw [h]
        _ ≤ (cs.dropWhile isBlank).length := length_dropEndWhile_le _ _
    rw [trim, hstart] at h
    exact ⟨hstart, h⟩
  · rintro ⟨hstart, hend⟩
    rw [trim, hstart, hend]

/-- What is dropped at the end satisfies the condition. -/
theorem exists_dropEndWhile_append (p : Char → Bool) (cs : List Char) :
    ∃ behind, (∀ c ∈ behind, p c = true) ∧ cs = dropEndWhile p cs ++ behind := by
  refine ⟨(cs.reverse.takeWhile p).reverse,
    fun c hc => List.mem_takeWhile_imp (List.mem_reverse.1 hc), ?_⟩
  rw [dropEndWhile, ← List.reverse_append, List.takeWhile_append_dropWhile, List.reverse_reverse]

/-- What is trimmed at the end are blanks. -/
theorem exists_trim_append (cs : List Char) :
    ∃ behind, (∀ c ∈ behind, isBlank c = true) ∧ cs.dropWhile isBlank = trim cs ++ behind :=
  exists_dropEndWhile_append isBlank (cs.dropWhile isBlank)

/-- And so it is at both ends. -/
theorem exists_blanks (cs : List Char) :
    ∃ before behind, (∀ c ∈ before, isBlank c = true) ∧ (∀ c ∈ behind, isBlank c = true) ∧
      cs = before ++ trim cs ++ behind := by
  obtain ⟨behind, hbehind, hcs⟩ := exists_trim_append cs
  refine ⟨cs.takeWhile isBlank, behind, fun c hc => List.mem_takeWhile_imp hc, hbehind, ?_⟩
  rw [List.append_assoc, ← hcs, List.takeWhile_append_dropWhile]

/-- **Trimming once is enough.** -/
theorem trim_trim (cs : List Char) : trim (trim cs) = trim cs := by
  refine trim_eq_self_iff.2 ⟨fun c hc => ?_, fun c hc => ?_⟩
  · -- what is dropped at the end does not change the beginning
    obtain ⟨behind, -, hcs⟩ := exists_trim_append cs
    have hhead : (cs.dropWhile isBlank).head? = some c := by
      rw [hcs, List.head?_append, Option.mem_def.1 hc, Option.some_or]
    simpa [hhead] using List.head?_dropWhile_not isBlank cs
  · rw [trim, dropEndWhile, List.getLast?_reverse] at hc
    simpa [Option.mem_def.1 hc] using
      List.head?_dropWhile_not isBlank (cs.dropWhile isBlank).reverse

/-- Behind a character that is to be kept, dropping at the end goes no
further. -/
theorem dropEndWhile_append {p : Char → Bool} (hcs : ∀ c ∈ cs.getLast?, p c = false)
    (behind : List Char) : dropEndWhile p (cs ++ behind) = cs ++ dropEndWhile p behind := by
  have hkeep : cs.reverse.dropWhile p = cs.reverse := by
    rw [dropWhile_eq_iff, List.head?_reverse]
    exact hcs
  rw [dropEndWhile, List.reverse_append, List.dropWhile_append, hkeep]
  cases hbehind : behind.reverse.dropWhile p with
  | nil => simp [dropEndWhile, hbehind]
  | cons c rest => simp [dropEndWhile, hbehind]

/-- Trimming keeps a trimmed text behind blanks, and drops the blanks at
the end of what follows it. -/
theorem trim_append_right (hcs : trim cs = cs) (hne : cs ≠ [])
    (hbefore : ∀ c ∈ before, isBlank c = true) (behind : List Char) :
    trim (before ++ cs ++ behind) = cs ++ dropEndWhile isBlank behind := by
  obtain ⟨hhead, hlast⟩ := trim_eq_self_iff.1 hcs
  have hstart : (cs ++ behind).dropWhile isBlank = cs ++ behind := by
    obtain ⟨c, rest, rfl⟩ := List.exists_cons_of_ne_nil hne
    exact dropWhile_eq_iff.2 hhead
  rw [trim, List.append_assoc, List.dropWhile_append_of_pos hbefore, hstart,
    dropEndWhile_append hlast]

/-- **Trimming finds a trimmed text between blanks.** -/
theorem trim_append (hcs : trim cs = cs) (hbefore : ∀ c ∈ before, isBlank c = true)
    (hbehind : ∀ c ∈ behind, isBlank c = true) : trim (before ++ cs ++ behind) = cs := by
  by_cases hne : cs = []
  · subst hne
    have hblank := List.forall_mem_append.2 ⟨hbefore, hbehind⟩
    rw [List.append_nil, trim, List.dropWhile_eq_nil_iff.2 hblank]
    rfl
  · have hend : dropEndWhile isBlank behind = [] := by
      rw [dropEndWhile, List.dropWhile_eq_nil_iff.2 fun c hc => hbehind c (List.mem_reverse.1 hc)]
      rfl
    rw [trim_append_right hcs hne hbefore, hend, List.append_nil]

/-- So blanks at the end do not matter. -/
theorem trim_append_blanks (cs : List Char) (hbehind : ∀ c ∈ behind, isBlank c = true) :
    trim (cs ++ behind) = trim cs := by
  obtain ⟨before, more, hbefore, hmore, hcs⟩ := exists_blanks cs
  calc trim (cs ++ behind)
    _ = trim (before ++ trim cs ++ (more ++ behind)) := by
        rw [← List.append_assoc, ← hcs]
    _ = trim cs := trim_append (trim_trim cs) hbefore (List.forall_mem_append.2 ⟨hmore, hbehind⟩)

theorem trim_dropEndWhile (cs : List Char) : trim (dropEndWhile isBlank cs) = trim cs := by
  obtain ⟨behind, hbehind, hcs⟩ := exists_dropEndWhile_append isBlank cs
  calc trim (dropEndWhile isBlank cs)
    _ = trim (dropEndWhile isBlank cs ++ behind) := (trim_append_blanks _ hbehind).symm
    _ = trim cs := by rw [← hcs]

/-- Trimming does not see characters exchanged for others of their kind. -/
theorem trim_map {f : Char → Char} (hf : ∀ c, isBlank (f c) = isBlank c) (cs : List Char) :
    trim (cs.map f) = (trim cs).map f := by
  have hblank : isBlank ∘ f = isBlank := funext hf
  simp only [trim, dropEndWhile, List.dropWhile_map, ← List.map_reverse, hblank]

end PathAccess.Text
