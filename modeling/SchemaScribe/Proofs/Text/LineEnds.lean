import SchemaScribe.Text.Lines

/-!
# Texts with unified line ends

`UnifiesTo` relates a row of characters to what it is with its line ends unified, so that the two
can be gone through side by side. A word without line ends stands in both (`UnifiesTo.of_append`).
-/

namespace SchemaScribe

open Text (unifyLineEnds)

/-- The second row of characters is the first with each line end read as a line feed. -/
inductive UnifiesTo : List Char → List Char → Prop
  | nil : UnifiesTo [] []
  | pair {rest rest' : List Char} (h : UnifiesTo rest rest') :
      UnifiesTo ('\r' :: '\n' :: rest) ('\n' :: rest')
  | single {rest rest' : List Char} (h : UnifiesTo rest rest') :
      UnifiesTo ('\r' :: rest) ('\n' :: rest')
  | same {c : Char} {rest rest' : List Char} (hc : c ≠ '\r') (h : UnifiesTo rest rest') :
      UnifiesTo (c :: rest) (c :: rest')

theorem unifiesTo_unifyLineEnds (chars : List Char) : UnifiesTo chars (unifyLineEnds chars) := by
  fun_induction unifyLineEnds chars with
  | case1 rest ih => exact .pair ih
  | case2 rest _ ih => exact .single ih
  | case3 c rest _ hc ih => exact .same (fun h => hc h) ih
  | case4 => exact .nil

namespace UnifiesTo

variable {chars chars' rest rest' word : List Char} {c : Char}

theorem of_cons (h : UnifiesTo (c :: rest) chars') (hc : c ≠ '\r') :
    ∃ rest', chars' = c :: rest' ∧ UnifiesTo rest rest' := by
  cases h with
  | pair => exact absurd rfl hc
  | single => exact absurd rfl hc
  | same _ h => exact ⟨_, rfl, h⟩

theorem of_cons_right (h : UnifiesTo chars (c :: rest')) (hc : c ≠ '\n') :
    ∃ rest, chars = c :: rest ∧ UnifiesTo rest rest' := by
  cases h with
  | pair => exact absurd rfl hc
  | single => exact absurd rfl hc
  | same _ h => exact ⟨_, rfl, h⟩

/-- What does not stand at the start of the one text does not at that of the other. -/
theorem ne_cons (h : UnifiesTo chars chars') (hc : c ≠ '\n')
    (hne : ∀ rest, chars = c :: rest → False) : ∀ rest', chars' = c :: rest' → False := by
  rintro rest' rfl
  obtain ⟨rest, hrest, -⟩ := h.of_cons_right hc
  exact hne rest hrest

/-- A word without line ends in it stands in both texts. -/
theorem of_append (hword : ∀ c ∈ word, c ≠ '\r') (h : UnifiesTo (word ++ rest) chars') :
    ∃ rest', chars' = word ++ rest' ∧ UnifiesTo rest rest' := by
  induction word generalizing chars' with
  | nil => exact ⟨chars', rfl, h⟩
  | cons c word ih =>
    obtain ⟨hc, hword⟩ := List.forall_mem_cons.1 hword
    obtain ⟨more, rfl, hmore⟩ := of_cons h hc
    obtain ⟨rest', rfl, hrest⟩ := ih hword hmore
    exact ⟨rest', rfl, hrest⟩

theorem of_append_right (hword : ∀ c ∈ word, c ≠ '\n') (h : UnifiesTo chars (word ++ rest')) :
    ∃ rest, chars = word ++ rest ∧ UnifiesTo rest rest' := by
  induction word generalizing chars with
  | nil => exact ⟨chars, rfl, h⟩
  | cons c word ih =>
    obtain ⟨hc, hword⟩ := List.forall_mem_cons.1 hword
    obtain ⟨more, rfl, hmore⟩ := of_cons_right h hc
    obtain ⟨rest, rfl, hrest⟩ := ih hword hmore
    exact ⟨rest, rfl, hrest⟩

theorem eq_nil_iff (h : UnifiesTo chars chars') : chars = [] ↔ chars' = [] := by
  cases h <;> simp

/-- A text without carriage returns stays as it is. -/
theorem eq_of_not_mem (h : UnifiesTo chars chars') (hnone : '\r' ∉ chars) : chars = chars' := by
  induction h with
  | nil => rfl
  | pair => exact absurd List.mem_cons_self hnone
  | single => exact absurd List.mem_cons_self hnone
  | same _ _ ih => rw [ih fun h => hnone (List.mem_cons_of_mem _ h)]

/-- Rows of characters that are no line ends are the same in both texts. -/
theorem takeWhile_eq {p : Char → Bool} (hr : p '\r' = false) (hn : p '\n' = false)
    (h : UnifiesTo chars chars') : chars.takeWhile p = chars'.takeWhile p := by
  induction h with
  | nil => rfl
  | pair =>
    rw [List.takeWhile_cons_of_neg (by simp [hr]), List.takeWhile_cons_of_neg (by simp [hn])]
  | single =>
    rw [List.takeWhile_cons_of_neg (by simp [hr]), List.takeWhile_cons_of_neg (by simp [hn])]
  | same _ _ ih => rw [List.takeWhile_cons, List.takeWhile_cons, ih]

theorem dropWhile {p : Char → Bool} (hr : p '\r' = false) (hn : p '\n' = false)
    (h : UnifiesTo chars chars') : UnifiesTo (chars.dropWhile p) (chars'.dropWhile p) := by
  induction h with
  | nil => exact .nil
  | pair h =>
    rw [List.dropWhile_cons_of_neg (by simp [hr]), List.dropWhile_cons_of_neg (by simp [hn])]
    exact .pair h
  | single h =>
    rw [List.dropWhile_cons_of_neg (by simp [hr]), List.dropWhile_cons_of_neg (by simp [hn])]
    exact .single h
  | @same c rest rest' hc h ih =>
    rw [List.dropWhile_cons, List.dropWhile_cons]
    split
    · exact ih
    · exact .same hc h

end UnifiesTo

end SchemaScribe
