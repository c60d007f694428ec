import Mathlib.Data.List.TakeWhile
import SchemaScribe.Proofs.Path.Descent

/-!
# Places that paths name

What the operations on paths do to places, for paths of any spelling: a path that is joined to
another goes on from the place of that one (`absolute_join`), and the directory of a path names the
place at which the path stands (`absolute_directory`). Segments of which none is `..` only lead
down, by the names among them (`walk_eq_append`).
-/

namespace SchemaScribe.Path

variable {cwd place : Location} {before path next name : Text} {row : List Text}

theorem absolute_of_not_isAbsolute (cwd : Location) (h : isAbsolute path = false) :
    absolute cwd path = walk cwd (segments path) := by
  rw [absolute, if_neg (by simp [h])]

theorem walk_append (place : Location) (a b : List Text) :
    walk place (a ++ b) = walk (walk place a) b :=
  List.foldl_append

theorem mem_step {s segment : Text} (h : s ∈ step place segment) : s ∈ place ∨ s = segment := by
  rw [step] at h
  split at h
  · exact .inl h
  split at h
  · exact .inl ((List.dropLast_sublist place).subset h)
  · rcases List.mem_append.1 h with h | h
    · exact .inl h
    · exact .inr (List.mem_singleton.1 h)

/-- A walk passes only names that are there already or are among the segments. -/
theorem mem_walk {s : Text} (h : s ∈ walk place row) : s ∈ place ∨ s ∈ row := by
  induction row generalizing place with
  | nil => exact .inl h
  | cons segment rest ih =>
    rcases ih h with h | h
    · rcases mem_step h with h | rfl
      · exact .inl h
      · exact .inr List.mem_cons_self
    · exact .inr (List.mem_cons_of_mem _ h)

theorem mem_absolute {s : Text} (h : s ∈ absolute cwd path) :
    isAbsolute path = false ∧ s ∈ cwd ∨ s ∈ segments path := by
  rw [absolute] at h
  rcases mem_walk h with h | h
  · cases habsolute : isAbsolute path with
    | true =>
      rw [habsolute, if_pos rfl] at h
      cases h
    | false =>
      rw [habsolute, if_neg Bool.false_ne_true] at h
      exact .inl ⟨rfl, h⟩
  · exact .inr h

/-! ## Slashes -/

/-- What stands behind a slash goes on from the place that is named up to the slash. -/
theorem absolute_append_slash (cwd : Location) (before next : Text) :
    absolute cwd (before ++ slash :: next) =
      walk (absolute cwd (before ++ [slash])) (segments next) := by
  have hfirst : isAbsolute (before ++ slash :: next) = isAbsolute (before ++ [slash]) := by
    cases before <;> rfl
  have hempty : ∀ place, walk place (segments []) = place := fun _ => rfl
  have hstart : segments (before ++ [slash]) = segments before ++ segments [] :=
    Text.split_append_cons slash before []
  have hall : segments (before ++ slash :: next) = segments before ++ segments next :=
    Text.split_append_cons slash before next
  rw [absolute, absolute, hfirst, hstart, hall, walk_append, walk_append, hempty]

/-- Slashes at the end of a path do not change its place. -/
theorem absolute_append_slashes (cwd : Location) (hne : before ≠ []) (n : Nat) :
    absolute cwd (before ++ List.replicate n slash) = absolute cwd before := by
  induction n with
  | zero => rw [List.replicate_zero, List.append_nil]
  | succ n ih =>
    have hnil : ∀ place, walk place (segments []) = place := fun _ => rfl
    have hsegments : segments (before ++ List.replicate n slash ++ [slash]) =
        segments (before ++ List.replicate n slash) ++ segments [] :=
      Text.split_append_cons slash _ []
    have hfirst : isAbsolute (before ++ List.replicate n slash ++ [slash]) =
        isAbsolute (before ++ List.replicate n slash) :=
      isAbsolute_append (by simp [hne]) _
    rw [List.replicate_succ', ← List.append_assoc, ← ih, absolute, hfirst, hsegments, walk_append,
      hnil]
    rfl

theorem exists_concat_of_endsWithSlash (h : endsWithSlash path = true) :
    ∃ before, path = before ++ [slash] :=
  List.getLast?_eq_some_iff.1 (beq_iff_eq.1 h)

/-! ## Joined paths and directories -/

/-- **Joined paths**: a path that is joined to another goes on from its place. -/
theorem absolute_join (cwd : Location) (path : Text) (hnext : isAbsolute next = false) :
    absolute cwd (join path next) = walk (absolute cwd path) (segments next) := by
  rw [join_of_not_isAbsolute _ hnext, separator]
  by_cases hnil : path = []
  · subst hnil
    exact absolute_of_not_isAbsolute cwd hnext
  · by_cases hend : endsWithSlash path = true
    · rw [if_pos (.inr hend), List.append_nil]
      obtain ⟨before, rfl⟩ := exists_concat_of_endsWithSlash hend
      rw [List.append_assoc, List.singleton_append, absolute_append_slash]
    · rw [if_neg (not_or.2 ⟨hnil, hend⟩), List.append_assoc, List.singleton_append,
        absolute_append_slash]
      exact congrArg (walk · (segments next)) (absolute_append_slashes cwd hnil 1)

/-- A path is what its slashes at the end are stripped to, and these slashes. -/
theorem eq_stripped_append_slashes (path : Text) :
    path = (path.reverse.dropWhile (· = slash)).reverse ++
      List.replicate (path.reverse.takeWhile (· = slash)).length slash := by
  have hslashes : path.reverse.takeWhile (· = slash) =
      List.replicate (path.reverse.takeWhile (· = slash)).length slash :=
    List.eq_replicate_of_mem fun x hx => by simpa using List.mem_takeWhile_imp hx
  rw [← List.reverse_replicate, ← hslashes, ← List.reverse_append,
    List.takeWhile_append_dropWhile, List.reverse_reverse]

/-- The directory of a path is at the place of what stands before the name, where the empty
directory is written as `.`. -/
theorem absolute_directory_append (cwd : Location) (hbefore : before = [] ∨ endsWithSlash before)
    (hname : slash ∉ name) :
    absolute cwd (if directory (before ++ name) = "" then "." else directory (before ++ name)) =
      absolute cwd before := by
  have hhead : (before ++ name).reverse.dropWhile (· ≠ slash) = before.reverse := by
    rw [List.reverse_append, List.dropWhile_append_of_pos]
    · rcases hbefore with rfl | hend
      · rfl
      · obtain ⟨start, rfl⟩ := exists_concat_of_endsWithSlash hend
        rw [List.reverse_append, List.reverse_singleton, List.singleton_append,
          List.dropWhile_cons_of_neg (by simp)]
    · intro x hx
      rw [decide_eq_true_eq]
      rintro rfl
      exact hname (List.mem_reverse.1 hx)
  rw [directory, hhead, ofString_empty]
  by_cases hnil : before = []
  · subst hnil
    rfl
  have hsplit := eq_stripped_append_slashes before
  cases hstripped : before.reverse.dropWhile (· = slash) with
  | nil =>
    rw [List.isEmpty_nil, if_pos rfl, List.reverse_reverse, if_neg hnil]
  | cons x rest =>
    rw [hstripped] at hsplit
    have hne : (x :: rest).reverse ≠ [] := by simp
    rw [List.isEmpty_cons, if_neg Bool.false_ne_true, if_neg hne]
    conv_rhs => rw [hsplit]
    exact (absolute_append_slashes cwd hne _).symm

/-- **Directories**: that of a path which is joined from a path and a name is at the place of the
first path. -/
theorem absolute_directory_join (cwd : Location) (path : Text) (hname : slash ∉ name) :
    absolute cwd (if directory (join path name) = "" then "." else directory (join path name)) =
      absolute cwd path := by
  have hbefore : path ++ separator path = [] ∨ endsWithSlash (path ++ separator path) := by
    unfold separator
    split
    · next h =>
      rw [List.append_nil]
      exact h
    · exact .inr (by simp [endsWithSlash])
  have hplace : absolute cwd (path ++ separator path) = absolute cwd path := by
    have hjoin := absolute_join cwd path (show isAbsolute [] = false from rfl)
    rwa [join_of_not_isAbsolute _ rfl, List.append_nil] at hjoin
  rw [join_of_not_isAbsolute _ (isAbsolute_of_not_mem hname),
    absolute_directory_append cwd hbefore hname, hplace]

/-! ## Ways down -/

/-- **Ways down**: a row of segments without `..` leads down, by those that are names. -/
theorem walk_eq_append (place : Location) (h : Text.ofString ".." ∉ row) :
    walk place row = place ++ names row := by
  induction row generalizing place with
  | nil => exact (List.append_nil place).symm
  | cons s rest ih =>
    obtain ⟨hs, hrest⟩ := not_or.1 (mt List.mem_cons.2 h)
    have hwalk : walk place (s :: rest) = walk (step place s) rest := rfl
    rw [hwalk, ih _ hrest, step, names_cons]
    by_cases hstay : s = "" ∨ s = "."
    · rw [if_pos hstay, if_pos hstay]
    · rw [if_neg hstay, if_neg hstay, if_neg (Ne.symm hs), List.append_assoc,
        List.singleton_append]

/-- Names among segments are segments that lead on, unless they are `..`. -/
theorem isSegment_of_mem_names (h : Text.ofString ".." ∉ segments path) :
    ∀ s ∈ names (segments path), IsSegment s := by
  intro s hs
  obtain ⟨hmem, hempty, hdot⟩ := mem_names.1 hs
  refine ⟨⟨hempty, Text.not_mem_of_mem_split hmem⟩, hdot, ?_⟩
  rintro rfl
  exact h hmem

end SchemaScribe.Path
