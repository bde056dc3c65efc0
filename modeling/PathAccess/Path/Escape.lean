/-!
# Escaped dots

A dot parts two names of a path. A dot inside a name is written with a backslash in front, and
while the path is read it is stood in for by the placeholder, a private-use character that no
path may hold itself. Restoring turns every placeholder into the dot it stands for.
-/

namespace PathAccess.Path

/-- The character that stands in for an escaped dot. -/
def placeholder : Char := '\uE000'

/-- Replaces every backslash that is followed by a dot, and the dot, from left to right. -/
def escapeDots : List Char → List Char
  | [] => []
  | '\\' :: '.' :: cs => placeholder :: escapeDots cs
  | c :: cs => c :: escapeDots cs

/-- Turns every placeholder into a dot. -/
def restoreDots (cs : List Char) : List Char :=
  cs.map fun c => if c = placeholder then '.' else c

/-- The text with its escaped dots replaced, if it holds no placeholder of its own. -/
def escape? (text : String) : Option String :=
  if placeholder ∈ text.toList then none else some (String.ofList (escapeDots text.toList))

/-- The text with a dot for every placeholder. -/
def restore (text : String) : String :=
  String.ofList (restoreDots text.toList)

@[simp] theorem escapeDots_nil : escapeDots [] = [] := by simp [escapeDots]

@[simp] theorem restoreDots_append (xs ys : List Char) :
    restoreDots (xs ++ ys) = restoreDots xs ++ restoreDots ys := by
  simp [restoreDots]

/-- No placeholder is left after restoring. -/
theorem placeholder_not_mem_restoreDots (cs : List Char) : placeholder ∉ restoreDots cs := by
  simp only [restoreDots, List.mem_map, not_exists, not_and]
  intro c _
  split
  · decide
  · exact fun h => by simp_all

end PathAccess.Path
