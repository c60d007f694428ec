import SchemaScribe.Text.Joined

/-!
# Texts between separators

A text is taken apart at a separator and put together again. Each separator parts what stands before
it from what stands behind it (`split_append_cons`), so that lines are found again in a text that
is made of them (`split_withLineEnds_append`).
-/

namespace SchemaScribe.Text

/-- What ends a line. -/
def lineFeed : CodePoint := .scalar '\n'

theorem joined_eq_intercalate (separator : Text) (parts : List Text) :
    joined separator parts = separator.intercalate parts := by
  induction parts with
  | nil => rfl
  | cons s rest ih =>
    cases rest with
    | nil => simp [joined, List.intercalate]
    | cons t more => simp [joined, ih, List.intercalate]

theorem split_eq_splitOn (x : CodePoint) (t : Text) : split x t = t.splitOn x := by
  induction t with
  | nil => rfl
  | cons y rest ih =>
    have hne := split_ne_nil x rest
    rw [split, List.splitOn_cons_eq_if_modifyHead, ← ih]
    by_cases hy : y = x
    · simp [hy]
    · rw [if_neg hy, if_neg (by simpa using hy)]
      obtain ⟨s, others, hs⟩ := List.exists_cons_of_ne_nil hne
      rw [hs]
      rfl

/-- Joined parts that do not hold the separator are found again. -/
theorem split_joined {x : CodePoint} {parts : List Text} (hx : ∀ s ∈ parts, x ∉ s)
    (hne : parts ≠ []) : split x (joined [x] parts) = parts := by
  rw [split_eq_splitOn, joined_eq_intercalate, List.splitOn_intercalate x hx hne]

/-- A separator parts what stands before it from what stands behind it. -/
theorem split_append_cons (x : CodePoint) (a b : Text) :
    split x (a ++ x :: b) = split x a ++ split x b := by
  simp only [split_eq_splitOn]
  exact List.splitOn_append_cons_self a b

theorem split_of_not_mem {x : CodePoint} {t : Text} (h : x ∉ t) : split x t = [t] := by
  have hparts : ∀ s ∈ [t], x ∉ s := fun s hs => List.mem_singleton.1 hs ▸ h
  exact split_joined hparts (List.cons_ne_nil t [])

theorem not_mem_of_mem_split {x : CodePoint} {t s : Text} (h : s ∈ split x t) : x ∉ s := by
  induction t generalizing s with
  | nil => simp_all [split]
  | cons y rest ih =>
    rw [split] at h
    split at h
    · rcases List.mem_cons.1 h with rfl | h
      · simp
      · exact ih h
    · next hy =>
      obtain ⟨u, others, hu⟩ := List.exists_cons_of_ne_nil (split_ne_nil x rest)
      rw [hu] at h ih
      rcases List.mem_cons.1 h with rfl | h
      · have hrest := ih List.mem_cons_self
        simp [hrest, Ne.symm hy]
      · exact ih (List.mem_cons_of_mem _ h)

theorem mem_of_mem_split {x y : CodePoint} {t s : Text} (h : s ∈ split x t) (hy : y ∈ s) :
    y ∈ t := by
  induction t generalizing s with
  | nil => simp_all [split]
  | cons z rest ih =>
    rw [split] at h
    split at h
    · rcases List.mem_cons.1 h with rfl | h
      · cases hy
      · exact List.mem_cons_of_mem _ (ih h hy)
    · obtain ⟨u, others, hu⟩ := List.exists_cons_of_ne_nil (split_ne_nil x rest)
      rw [hu] at h ih
      rcases List.mem_cons.1 h with rfl | h
      · rcases List.mem_cons.1 hy with rfl | hy
        · exact List.mem_cons_self
        · exact List.mem_cons_of_mem _ (ih List.mem_cons_self hy)
      · exact List.mem_cons_of_mem _ (ih (List.mem_cons_of_mem _ h) hy)

/-- What goes behind a text, and holds no separator, goes to its last part. -/
theorem exists_split_append {x : CodePoint} (t : Text) {more : Text} (hmore : x ∉ more) :
    ∃ last, x ∉ last ∧ split x (t ++ more) = (split x t).dropLast ++ [last ++ more] := by
  by_cases hx : x ∈ t
  · obtain ⟨back, front, hreverse, hback⟩ := List.eq_append_cons_of_mem (List.mem_reverse.2 hx)
    have ht : t = front.reverse ++ x :: back.reverse := by
      rw [← List.reverse_reverse t, hreverse, List.reverse_append, List.reverse_cons,
        List.append_assoc, List.singleton_append]
    have hlast : x ∉ back.reverse := fun hmem => hback (List.mem_reverse.1 hmem)
    have hend : x ∉ back.reverse ++ more := fun hmem => (List.mem_append.1 hmem).elim hlast hmore
    refine ⟨back.reverse, hlast, ?_⟩
    rw [ht, List.append_assoc, List.cons_append, split_append_cons, split_append_cons,
      split_of_not_mem hlast, split_of_not_mem hend, List.dropLast_concat]
  · refine ⟨t, hx, ?_⟩
    rw [split_of_not_mem hx, split_of_not_mem (by simp [hx, hmore])]
    rfl

/-- **Lines are found again** in a text that starts with them. -/
theorem split_withLineEnds_append {lines : List Text} (h : ∀ line ∈ lines, lineFeed ∉ line)
    (rest : Text) : split lineFeed (withLineEnds lines ++ rest) = lines ++ split lineFeed rest := by
  induction lines with
  | nil => rfl
  | cons line more ih =>
    obtain ⟨hline, hmore⟩ := List.forall_mem_cons.1 h
    have hfeed : withLineEnds (line :: more) ++ rest =
        line ++ lineFeed :: (withLineEnds more ++ rest) := by
      rw [withLineEnds, List.append_assoc, List.append_assoc]
      rfl
    rw [hfeed, split_append_cons, split_of_not_mem hline, ih hmore]
    rfl

end SchemaScribe.Text
