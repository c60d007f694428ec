import SchemaScribe.Path.Basic

/-!
# The words of paths

The texts that have a meaning in paths, by their code points, and what joining two paths is when
the second is not absolute.
-/

namespace SchemaScribe.Path

@[simp] theorem ofString_empty : Text.ofString "" = [] := rfl

theorem ofString_slash : Text.ofString "/" = [slash] := rfl

@[simp] theorem isAbsolute_nil : isAbsolute [] = false := rfl

theorem isAbsolute_cons (x : CodePoint) (rest : Text) :
    isAbsolute (x :: rest) = (x == slash) := by
  simp [isAbsolute]

theorem isAbsolute_of_not_mem {path : Text} (h : slash ∉ path) : isAbsolute path = false := by
  cases path with
  | nil => rfl
  | cons x rest =>
    have hx : slash ≠ x := fun heq => h (heq ▸ List.mem_cons_self)
    simpa [isAbsolute_cons] using hx.symm

theorem isAbsolute_append {path : Text} (h : path ≠ []) (rest : Text) :
    isAbsolute (path ++ rest) = isAbsolute path := by
  obtain ⟨x, tail, rfl⟩ := List.exists_cons_of_ne_nil h
  rw [List.cons_append, isAbsolute_cons, isAbsolute_cons]

theorem join_of_isAbsolute (path : Text) {next : Text} (h : isAbsolute next = true) :
    join path next = next := by
  rw [join, if_pos h]

/-- What stands between a path and another that is joined to it. -/
def separator (path : Text) : Text := if path = [] ∨ endsWithSlash path then [] else [slash]

theorem join_of_not_isAbsolute (path : Text) {next : Text} (h : isAbsolute next = false) :
    join path next = path ++ separator path ++ next := by
  rw [join, if_neg (by simp [h]), separator, ofString_empty]
  split
  · simp
  · rw [ofString_slash]

theorem not_mem_join {x : CodePoint} {path next : Text} (hx : x ≠ slash) (hpath : x ∉ path)
    (hnext : x ∉ next) : x ∉ join path next := by
  cases habsolute : isAbsolute next with
  | true => rwa [join_of_isAbsolute _ habsolute]
  | false =>
    have hseparator : x ∉ separator path := by
      unfold separator
      split <;> simp [hx]
    rw [join_of_not_isAbsolute _ habsolute]
    simp [hpath, hseparator, hnext]

theorem join_ne_nil {path : Text} (h : path ≠ []) (next : Text) : join path next ≠ [] := by
  cases hnext : isAbsolute next with
  | true =>
    rw [join_of_isAbsolute _ hnext]
    rintro rfl
    simp at hnext
  | false =>
    rw [join_of_not_isAbsolute _ hnext]
    simp [h]

end SchemaScribe.Path
