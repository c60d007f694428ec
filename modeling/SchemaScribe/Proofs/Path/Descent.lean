import Mathlib.Data.Fintype.EquivFin
import SchemaScribe.Proofs.FileSystem.Directories
import SchemaScribe.Proofs.Layout.FileName
import SchemaScribe.Proofs.Path.Segments

/-!
# Paths that lead down

A path leads below the folder from which it is read, whichever folder that is, exactly when it is
relative and its directories never lead up further than they have led down (`stays_iff`). Behind a
row of folders it may lead up once more for each of them (`leadsDown_place_iff`).

That any other path leaves some folder is seen from a working directory whose name does not occur in
the path: what has once left it cannot come back.
-/

namespace SchemaScribe

namespace Path

/-- How often the segments lead up further than they have led down: `..` leads up, an empty segment
and `.` stay. -/
def rise : List Text → Nat
  | [] => 0
  | segment :: rest =>
    if segment = "" ∨ segment = "." then rise rest
    else if segment = ".." then rise rest + 1
    else rise rest - 1

example : rise ["..", "a", ".", "..", ".."] = 2 := by decide

/-- The place is below that of a folder, and is not the folder itself. -/
def IsBelow (folder place : Location) : Prop := folder <+: place ∧ place ≠ folder

instance (folder place : Location) : Decidable (IsBelow folder place) :=
  inferInstanceAs (Decidable (_ ∧ _))

/-- What the path names is below the folder from which it is read, whichever that is. -/
def Stays (path : Text) : Prop :=
  ∀ (cwd : Location) (folder : FilePath), IsBelow (folder.place cwd) ((folder.join path).place cwd)

/-- The name is a relative path whose directories lead up at most `depth` times further than they
have led down. -/
def LeadsDown (depth : Nat) (name : Text) : Prop :=
  isAbsolute name = false ∧ rise (segments name).dropLast ≤ depth

instance (depth : Nat) (name : Text) : Decidable (LeadsDown depth name) :=
  inferInstanceAs (Decidable (_ ∧ _))

variable {segment : Text} {row rest way : List Text} {folder below place : Location}

/-! ## How far segments lead up -/

theorem segments_ne_nil (path : Text) : segments path ≠ [] := Text.split_ne_nil slash path

theorem rise_cons_of_isSegment (h : IsSegment segment) (rest : List Text) :
    rise (segment :: rest) = rise rest - 1 := by
  rw [rise, if_neg (not_or.2 ⟨h.ne_empty, h.ne_dot⟩), if_neg h.ne_dots]

/-- Each segment that leads on makes up for one that leads up behind it. -/
theorem rise_append (h : ∀ s ∈ way, IsSegment s) (rest : List Text) :
    rise (way ++ rest) = rise rest - way.length := by
  induction way with
  | nil => rfl
  | cons s more ih =>
    obtain ⟨hs, hmore⟩ := List.forall_mem_cons.1 h
    rw [List.cons_append, rise_cons_of_isSegment hs, ih hmore, List.length_cons]
    omega

/-- The segments that lead on or up. -/
def names (row : List Text) : List Text := row.filter fun s => s ≠ "" ∧ s ≠ "."

theorem mem_names : segment ∈ names row ↔ segment ∈ row ∧ segment ≠ "" ∧ segment ≠ "." := by
  rw [names, List.mem_filter, decide_eq_true_iff]

theorem names_cons (segment : Text) (rest : List Text) : names (segment :: rest) =
    if segment = "" ∨ segment = "." then names rest else segment :: names rest := by
  split
  · next h =>
    apply List.filter_cons_of_neg
    rw [decide_eq_true_iff, not_and_or, not_not, not_not]
    exact h
  · next h => exact List.filter_cons_of_pos (decide_eq_true (not_or.1 h))

/-! ## Walks from a folder -/

/-- Segments that go up no further than where they start below a folder stay in the folder. -/
theorem exists_foldl_stepTo (hrise : rise row ≤ below.length) :
    ∃ last, (names row).foldl FilePath.stepTo (folder ++ below) = folder ++ last := by
  induction row generalizing below with
  | nil => exact ⟨below, rfl⟩
  | cons s more ih =>
    rw [rise] at hrise
    rw [names_cons]
    split at hrise
    · next hstay =>
      rw [if_pos hstay]
      exact ih hrise
    next hlead =>
    rw [if_neg hlead, List.foldl_cons, FilePath.stepTo]
    split at hrise
    · next hdots =>
      have hne : below ≠ [] := by
        rintro rfl
        simp at hrise
      rw [if_pos hdots, List.dropLast_append_of_ne_nil hne]
      exact ih (by rw [List.length_dropLast]; omega)
    · next hdots =>
      rw [if_neg hdots, List.append_assoc]
      exact ih (by rw [List.length_append, List.length_singleton]; omega)

/-- A name that none of the segments is does not turn up on the way. -/
theorem not_mem_foldl_stepTo {mark : Text} (hmark : ∀ s ∈ row, FilePath.plain s ≠ mark)
    (hplace : mark ∉ place) : mark ∉ row.foldl FilePath.stepTo place := by
  induction row generalizing place with
  | nil => exact hplace
  | cons s more ih =>
    obtain ⟨hs, hmore⟩ := List.forall_mem_cons.1 hmark
    refine ih hmore ?_
    unfold FilePath.stepTo
    split
    · exact fun hmem => hplace ((List.dropLast_sublist place).subset hmem)
    · simp [hplace, Ne.symm hs]

/-- Segments that go up further than where they start below a directory leave the directory. -/
theorem not_mem_of_rise {mark : Text} (hmark : ∀ s ∈ names row, FilePath.plain s ≠ mark)
    (hbelow : mark ∉ below) (hrise : below.length < rise row) :
    mark ∉ (names row).foldl FilePath.stepTo (mark :: below) := by
  induction row generalizing below with
  | nil => simp [rise] at hrise
  | cons s more ih =>
    rw [rise] at hrise
    rw [names_cons] at hmark ⊢
    split at hrise
    · next hstay =>
      rw [if_pos hstay] at hmark ⊢
      exact ih hmark hbelow hrise
    next hlead =>
    rw [if_neg hlead] at hmark ⊢
    obtain ⟨hs, hmore⟩ := List.forall_mem_cons.1 hmark
    rw [List.foldl_cons, FilePath.stepTo]
    split at hrise
    · next hdots =>
      rw [if_pos hdots]
      by_cases hnil : below = []
      · subst hnil
        exact not_mem_foldl_stepTo hmore (by simp)
      · rw [List.dropLast_cons_of_ne_nil hnil]
        refine ih hmore (fun hmem => hbelow ((List.dropLast_sublist below).subset hmem)) ?_
        have hlength := List.length_pos_iff.2 hnil
        rw [List.length_dropLast]
        omega
    · next hdots =>
      rw [if_neg hdots, List.cons_append]
      refine ih hmore (by simp [hbelow, Ne.symm hs]) ?_
      rw [List.length_append, List.length_singleton]
      omega

/-! ## Paths -/

theorem anchor_of_eq_here_iff {path : Text} : Anchor.of path = .here ↔ isAbsolute path = false := by
  cases path with
  | nil => exact iff_of_true rfl rfl
  | cons x more =>
    by_cases hx : x = slash
    · subst hx
      rw [Anchor.of, List.takeWhile_cons_of_pos (by simp)]
      refine iff_of_false ?_ (by simp [isAbsolute_cons])
      split <;> simp_all
    · rw [Anchor.of, List.takeWhile_cons_of_neg (by simpa using hx)]
      exact iff_of_true rfl (by simpa [isAbsolute_cons] using hx)

variable {path last extension : Text} {dirs : List Text}

/-- The place of a path that is read from a folder: the walk along its directories, and its last
name. -/
theorem place_join (hsegments : segments path = dirs ++ [last]) (hlast : IsSegment last)
    (cwd : Location) (folder : FilePath) :
    (folder.join path).place cwd =
      (names dirs).foldl FilePath.stepTo (if isAbsolute path then [] else folder.place cwd) ++
        [FilePath.plain last] := by
  have hparts : (FilePath.ofText path).parts = names dirs ++ [last] := by
    have hkeep : names [last] = [last] := by
      rw [names_cons, if_neg (not_or.2 ⟨hlast.ne_empty, hlast.ne_dot⟩)]
      rfl
    have happend : names (dirs ++ [last]) = names dirs ++ names [last] := List.filter_append ..
    rw [← hkeep, ← happend, ← hsegments]
    rfl
  have hstep : ∀ place, FilePath.stepTo place last = place ++ [FilePath.plain last] :=
    fun place => if_neg hlast.ne_dots
  have hanchor : (FilePath.ofText path).anchor = Anchor.of path := rfl
  unfold FilePath.join
  dsimp only
  rw [hanchor, hparts]
  cases habsolute : isAbsolute path with
  | false =>
    rw [if_pos (anchor_of_eq_here_iff.2 habsolute), FilePath.place, List.foldl_append,
      List.foldl_append, List.foldl_cons, List.foldl_nil, hstep]
    rfl
  | true =>
    have hroot : Anchor.of path ≠ .here := by
      rw [Ne, anchor_of_eq_here_iff, habsolute]
      exact Bool.noConfusion
    rw [if_neg hroot, FilePath.place, hanchor, if_neg hroot, hparts, List.foldl_append,
      List.foldl_cons, List.foldl_nil, hstep]
    rfl

/-- **Which paths stay below**: those that are relative and whose directories do not lead up
further than they have led down. -/
theorem stays_iff (hsegments : segments path = dirs ++ [last]) (hlast : IsSegment last) :
    Stays path ↔ isAbsolute path = false ∧ rise dirs = 0 := by
  constructor
  · intro hstays
    obtain ⟨mark, hmark⟩ := Infinite.exists_notMem_finset
      ((dirs ++ [last]).map FilePath.plain).toFinset
    have hother : ∀ s ∈ dirs ++ [last], FilePath.plain s ≠ mark := fun s hs heq =>
      hmark (List.mem_toFinset.2 (heq ▸ List.mem_map_of_mem hs))
    have hdirs : ∀ s ∈ names dirs, FilePath.plain s ≠ mark := fun s hs =>
      hother s (List.mem_append_left _ (mem_names.1 hs).1)
    -- A path that leaves the working directory `mark` cannot come back to it.
    obtain ⟨hbelow, -⟩ := hstays [mark] ⟨.here, []⟩
    have hmem : mark ∈ ((⟨.here, []⟩ : FilePath).join path).place [mark] :=
      hbelow.subset List.mem_cons_self
    rw [place_join hsegments hlast] at hmem
    replace hmem := (List.mem_append.1 hmem).resolve_right fun hin =>
      hother last (by simp) (List.mem_singleton.1 hin).symm
    cases habsolute : isAbsolute path with
    | true =>
      rw [habsolute, if_pos rfl] at hmem
      exact absurd hmem (not_mem_foldl_stepTo hdirs (by simp))
    | false =>
      rw [habsolute, if_neg Bool.false_ne_true] at hmem
      have hmark : mark ∉ ([] : Location) := by simp
      exact ⟨rfl, Nat.eq_zero_of_not_pos fun hrise => not_mem_of_rise hdirs hmark hrise hmem⟩
  · rintro ⟨habsolute, hrise⟩ cwd folder
    rw [place_join hsegments hlast, habsolute, if_neg Bool.false_ne_true]
    obtain ⟨below, hbelow⟩ : ∃ below,
        (names dirs).foldl FilePath.stepTo (folder.place cwd ++ []) = folder.place cwd ++ below :=
      exists_foldl_stepTo (Nat.le_of_eq hrise)
    rw [List.append_nil] at hbelow
    rw [hbelow, List.append_assoc]
    exact ⟨List.prefix_append _ _, by simp⟩

/-! ## Names in folders -/

/-- The segments of a path behind a row of folders are behind these. -/
theorem segments_along_cons_slash (hway : ∀ s ∈ way, slash ∉ s) (hne : way ≠ []) (path : Text) :
    segments (along way ++ slash :: path) = way ++ segments path := by
  have halong : segments (along way) = way := Text.split_joined hway hne
  rw [segments, Text.split_append_cons, ← segments, halong, segments]

theorem isAbsolute_append_extension (hextension : slash ∉ extension) (path : Text) :
    isAbsolute (path ++ extension) = isAbsolute path := by
  cases path with
  | cons x more => exact isAbsolute_append (List.cons_ne_nil x more) extension
  | nil => exact isAbsolute_of_not_mem hextension

/-- With an extension of its own, a path stays below exactly when it leads down. -/
theorem stays_append_iff (hextension : slash ∉ extension) (hlength : 2 < extension.length)
    (path : Text) : Stays (path ++ extension) ↔ LeadsDown 0 path := by
  obtain ⟨last, hlast, hsegments⟩ : ∃ last, slash ∉ last ∧
      segments (path ++ extension) = (segments path).dropLast ++ [last ++ extension] :=
    Text.exists_split_append path hextension
  have hne : ∀ word : Text, word.length ≤ 2 → last ++ extension ≠ word := by
    rintro word hword rfl
    rw [List.length_append] at hword
    omega
  have hsegment : IsSegment (last ++ extension) :=
    ⟨⟨hne _ (by decide), by simp [hlast, hextension]⟩, hne _ (by decide), hne _ (by decide)⟩
  rw [stays_iff hsegments hsegment, isAbsolute_append_extension hextension, LeadsDown, Nat.le_zero]

/-- Behind a row of folders, a path may lead up once more for each folder. -/
theorem leadsDown_place_iff (hway : ∀ s ∈ way, IsSegment s) (hne : way ≠ []) (name : Text) :
    LeadsDown 0 (Layout.place (along way) name) ↔ LeadsDown way.length name := by
  have hparts : ∀ s ∈ way, IsPart s := fun s hs => (hway s hs).toIsPart
  rw [LeadsDown, LeadsDown, Layout.isAbsolute_place (isAbsolute_along hparts)]
  refine and_congr_right fun hname => ?_
  by_cases hnil : name = []
  · subst hnil
    have hdirs : ∀ s ∈ way.dropLast, IsSegment s := fun s hs =>
      hway s ((List.dropLast_sublist way).subset hs)
    have hrise := rise_append hdirs []
    rw [List.append_nil] at hrise
    rw [Layout.place, if_pos rfl, segments_along hparts hne, hrise]
    simp [rise, segments, Text.split]
  · have hplace : Layout.place (along way) name = along way ++ slash :: name := by
      rw [Layout.place_of_not_isAbsolute _ hname, if_neg hnil, separator,
        endsWithSlash_along hparts, if_neg (by simp [along_ne_nil hparts hne])]
      rfl
    rw [hplace, segments_along_cons_slash (fun s hs => (hway s hs).no_slash) hne,
      List.dropLast_append_of_ne_nil (segments_ne_nil name), rise_append hway]
    omega

end Path

end SchemaScribe
