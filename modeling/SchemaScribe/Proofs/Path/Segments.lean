import SchemaScribe.Proofs.Path.Words
import SchemaScribe.Proofs.Text.Split

/-!
# Paths made of segments

A path without empty segments and without `.` and `..` is given by its segments (`isPlain_iff`).
For such paths the operations on paths are operations on rows of segments: joining two paths puts
the rows together (`join_along`), the directory of a path leaves out the last segment
(`directory_along`), and the place of a path is below the working directory (`absolute_along`).
-/

namespace SchemaScribe

namespace Path

/-- What can stand between two slashes. -/
structure IsPart (s : Text) : Prop where
  ne_empty : s ≠ ""
  no_slash : slash ∉ s

/-- A segment that leads to a place of its own below that where it is read. -/
structure IsSegment (s : Text) : Prop extends IsPart s where
  ne_dot : s ≠ "."
  ne_dots : s ≠ ".."

/-- A path is empty, or it is a relative path without empty, `.` and `..` segments. -/
def IsPlain (path : Text) : Prop :=
  path = "" ∨ ∀ s ∈ segments path, s ≠ "" ∧ s ≠ "." ∧ s ≠ ".."

/-- The path along a row of segments. -/
def along (way : List Text) : Text := Text.joined [slash] way

/-- A path is plain exactly when it is the path along a row of segments. -/
theorem isPlain_iff {path : Text} :
    IsPlain path ↔ ∃ way, (∀ s ∈ way, IsSegment s) ∧ path = along way := by
  have hjoined : along (segments path) = path := Text.joined_split slash path
  constructor
  · rintro (rfl | h)
    · exact ⟨[], by simp, rfl⟩
    · refine ⟨segments path, fun s hs => ?_, hjoined.symm⟩
      obtain ⟨hempty, hdot, hdots⟩ := h s hs
      exact ⟨⟨hempty, Text.not_mem_of_mem_split hs⟩, hdot, hdots⟩
  · rintro ⟨way, hway, rfl⟩
    cases way with
    | nil => exact .inl rfl
    | cons s rest =>
      refine .inr fun t ht => ?_
      rw [segments, along, Text.split_joined (fun u hu => (hway u hu).no_slash) (by simp)] at ht
      exact ⟨(hway t ht).ne_empty, (hway t ht).ne_dot, (hway t ht).ne_dots⟩

/-! ## The ends of a path -/

theorem along_cons {s : Text} {way : List Text} (h : way ≠ []) :
    along (s :: way) = s ++ slash :: along way := by
  obtain ⟨t, rest, rfl⟩ := List.exists_cons_of_ne_nil h
  simp [along, Text.joined]

theorem along_append {a b : List Text} (ha : a ≠ []) (hb : b ≠ []) :
    along (a ++ b) = along a ++ slash :: along b := by
  induction a with
  | nil => exact absurd rfl ha
  | cons s rest ih =>
    by_cases hrest : rest = []
    · subst hrest
      exact along_cons hb
    · rw [List.cons_append, along_cons (List.append_ne_nil_of_left_ne_nil hrest b), ih hrest,
        along_cons hrest, List.append_assoc, List.cons_append]

variable {way : List Text} {cwd : Location}

theorem not_mem_along {x : CodePoint} (hx : x ≠ slash) (h : ∀ s ∈ way, x ∉ s) : x ∉ along way := by
  induction way with
  | nil => exact List.not_mem_nil
  | cons s rest ih =>
    obtain ⟨hs, hrest⟩ := List.forall_mem_cons.1 h
    by_cases hnil : rest = []
    · subst hnil
      exact hs
    · rw [along_cons hnil, List.mem_append, List.mem_cons, not_or, not_or]
      exact ⟨hs, hx, ih hrest⟩

theorem segments_along (h : ∀ s ∈ way, IsPart s) (hne : way ≠ []) :
    segments (along way) = way :=
  Text.split_joined (fun s hs => (h s hs).no_slash) hne

theorem isAbsolute_along (h : ∀ s ∈ way, IsPart s) : isAbsolute (along way) = false := by
  cases way with
  | nil => rfl
  | cons s rest =>
    have hs := h s List.mem_cons_self
    have hfirst : isAbsolute s = false := isAbsolute_of_not_mem hs.no_slash
    cases rest with
    | nil => exact hfirst
    | cons t more => rw [along_cons (by simp), isAbsolute_append hs.ne_empty, hfirst]

theorem along_ne_nil (h : ∀ s ∈ way, IsPart s) (hne : way ≠ []) : along way ≠ [] := by
  intro hnil
  have hsegments := segments_along h hne
  rw [hnil] at hsegments
  exact (h [] (hsegments ▸ List.mem_cons_self)).ne_empty rfl

theorem along_concat (way : List Text) (s : Text) :
    along (way ++ [s]) = (if way = [] then [] else along way ++ [slash]) ++ s := by
  split
  · next hnil => rw [hnil]; rfl
  · next hne => rw [along_append hne (by simp)]; simp [along, Text.joined]

theorem endsWithSlash_along (h : ∀ s ∈ way, IsPart s) : endsWithSlash (along way) = false := by
  rcases List.eq_nil_or_concat way with rfl | ⟨before, s, rfl⟩
  · rfl
  · have hs := h s (by simp)
    obtain ⟨x, hx⟩ : ∃ x, s.getLast? = some x :=
      ⟨s.getLast hs.ne_empty, List.getLast?_eq_some_getLast hs.ne_empty⟩
    rw [List.concat_eq_append, endsWithSlash, along_concat, List.getLast?_append, hx,
      Option.some_or, beq_eq_false_iff_ne]
    intro hslash
    exact hs.no_slash (List.mem_of_getLast? (hx.trans hslash))

/-! ## Operations on paths -/

/-- Joining two paths puts their segments in a row. -/
theorem join_along {a b : List Text} (ha : ∀ s ∈ a, IsPart s) (hb : ∀ s ∈ b, IsPart s)
    (hne : b ≠ []) : join (along a) (along b) = along (a ++ b) := by
  rw [join_of_not_isAbsolute _ (isAbsolute_along hb), separator, endsWithSlash_along ha]
  by_cases hnil : a = []
  · subst hnil
    rfl
  · rw [if_neg (by simp [along_ne_nil ha hnil]), along_append hnil hne]
    simp

/-- The directory of a path is the path along all segments but the last, whatever that one is. -/
theorem directory_along (h : ∀ s ∈ way, IsPart s) {last : Text} (hlast : slash ∉ last) :
    directory (along (way ++ [last])) = along way := by
  have hdrop : ∀ rest : List CodePoint, (last.reverse ++ rest).dropWhile (· ≠ slash) =
      rest.dropWhile (· ≠ slash) := by
    intro rest
    refine List.dropWhile_append_of_pos fun x hx => ?_
    rw [decide_eq_true_eq]
    rintro rfl
    exact hlast (List.mem_reverse.1 hx)
  have hkeep : (along way).reverse.dropWhile (· = slash) = (along way).reverse := by
    have hend := endsWithSlash_along h
    cases hreverse : (along way).reverse with
    | nil => rfl
    | cons x rest =>
      have hx : (along way).getLast? = some x := by
        rw [← List.head?_reverse, hreverse, List.head?_cons]
      rw [endsWithSlash, hx] at hend
      exact List.dropWhile_cons_of_neg (by simpa using hend)
  rw [directory, along_concat, List.reverse_append, hdrop]
  by_cases hnil : way = []
  · subst hnil
    rfl
  · have hstop : [slash] ++ (along way).reverse = slash :: (along way).reverse := rfl
    rw [if_neg hnil, List.reverse_append, List.reverse_singleton, hstop,
      List.dropWhile_cons_of_neg (by simp), List.dropWhile_cons_of_pos (by simp), hkeep]
    simp [along_ne_nil h hnil]

/-- The place of a path along segments is below the working directory. -/
theorem absolute_along (cwd : Location) (h : ∀ s ∈ way, IsSegment s) (hne : way ≠ []) :
    absolute cwd (along way) = cwd ++ way := by
  have hwalk : ∀ (place : Location) {rest : List Text}, (∀ s ∈ rest, IsSegment s) →
      walk place rest = place ++ rest := by
    intro place rest hrest
    induction rest generalizing place with
    | nil => simp [walk]
    | cons s more ih =>
      obtain ⟨hs, hmore⟩ := List.forall_mem_cons.1 hrest
      have hstep : step place s = place ++ [s] := by
        rw [step, if_neg (not_or.2 ⟨hs.ne_empty, hs.ne_dot⟩), if_neg hs.ne_dots]
      rw [walk, List.foldl_cons, hstep]
      exact (ih (place ++ [s]) hmore).trans (List.append_assoc place [s] more)
  have hparts : ∀ s ∈ way, IsPart s := fun s hs => (h s hs).toIsPart
  rw [absolute, isAbsolute_along hparts, segments_along hparts hne]
  exact hwalk cwd h

/-! ## The way between two places -/

theorem common_append (cwd a b : Location) :
    common (cwd ++ a) (cwd ++ b) = cwd.length + common a b := by
  induction cwd with
  | nil => simp
  | cons s rest ih =>
    rw [List.cons_append, List.cons_append, common, if_pos rfl, ih, List.length_cons]
    omega

theorem common_le_length (a b : Location) : common a b ≤ a.length := by
  induction a generalizing b with
  | nil => simp [common]
  | cons s rest ih =>
    cases b with
    | nil => simp [common]
    | cons t more =>
      have hrest := ih more
      rw [common, List.length_cons]
      split <;> omega

/-- Two places agree as far as they have segments in common. -/
theorem take_common (a b : Location) : a.take (common a b) = b.take (common a b) := by
  induction a generalizing b with
  | nil => simp [common]
  | cons s rest ih =>
    cases b with
    | nil => simp [common]
    | cons t more =>
      rw [common]
      split
      · next hst => rw [List.take_succ_cons, List.take_succ_cons, hst, ih more]
      · rfl

end Path

end SchemaScribe
