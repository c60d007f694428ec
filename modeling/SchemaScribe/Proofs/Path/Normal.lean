import SchemaScribe.Layout
import SchemaScribe.Proofs.Path.Segments

/-!
# Normal paths

`normalize` takes the segments `.` and `..` out of a path, as far as that can be done without
knowing where it is read. A module that is referred to by a specifier is found by it
(`normalize_join_specifier`): the specifier, joined to the directory of the module in which it
stands, is normally the path of the module that it was made for.

The specifier leads up from the directory to the last place on both ways, and down from there. The
working directory, from which both ways are seen, is part of what they have in common and has no
say in it.
-/

namespace SchemaScribe

namespace Path

/-- How many slashes a normal path keeps of those at its start: two of just two, and else at most
one. -/
def rootSlashes (path : Text) : Nat :=
  match (path.takeWhile (· = slash)).length with
  | 0 => 0
  | 2 => 2
  | _ => 1

/-- Adds a segment to a normal path: `..` takes out the segment before it, unless there is none or
it is `..` too. At the root there is nothing to take out. -/
def normalStep (rooted : Bool) (way : List Text) (segment : Text) : List Text :=
  if segment = "" ∨ segment = "." then way
  else if segment ≠ ".." ∨ (rooted = false ∧ way = []) ∨ way.getLast? = some ".." then
    way ++ [segment]
  else way.dropLast

/-- The normal form of a path. -/
def normalize (path : Text) : Text :=
  let slashes := rootSlashes path
  match List.replicate slashes slash ++
    along ((segments path).foldl (normalStep (slashes != 0)) []) with
  | [] => "."
  | normal => normal

example : normalize "a/./b/../../c" = "c" := by decide

variable {way : List Text} {cwd : Location}

theorem rootSlashes_of_not_isAbsolute {path : Text} (h : isAbsolute path = false) :
    rootSlashes path = 0 := by
  cases path with
  | nil => rfl
  | cons x rest =>
    rw [isAbsolute_cons] at h
    rw [rootSlashes, List.takeWhile_cons_of_neg (by simpa using h)]
    rfl

/-- The normal form of the path along a row of parts. -/
theorem normalize_along (h : ∀ s ∈ way, IsPart s) (hne : way ≠ []) :
    normalize (along way) =
      match along (way.foldl (normalStep false) []) with
      | [] => "."
      | normal => normal := by
  rw [normalize, rootSlashes_of_not_isAbsolute (isAbsolute_along h), segments_along h hne]
  rfl

/-- Segments that lead on are added one after the other. -/
theorem foldl_normalStep_segments {more : List Text} (h : ∀ s ∈ more, IsSegment s) :
    more.foldl (normalStep false) way = way ++ more := by
  induction more generalizing way with
  | nil => simp
  | cons s rest ih =>
    obtain ⟨hs, hrest⟩ := List.forall_mem_cons.1 h
    have hstep : normalStep false way s = way ++ [s] := by
      rw [normalStep, if_neg (not_or.2 ⟨hs.ne_empty, hs.ne_dot⟩), if_pos (.inl hs.ne_dots)]
    rw [List.foldl_cons, hstep, ih hrest, List.append_assoc, List.singleton_append]

/-- Each `..` takes out one segment. -/
theorem foldl_normalStep_dots (h : ∀ s ∈ way, IsSegment s) {n : Nat} (hn : n ≤ way.length) :
    (List.replicate n (Text.ofString "..")).foldl (normalStep false) way =
      way.take (way.length - n) := by
  induction n generalizing way with
  | zero => simp
  | succ n ih =>
    have hne : way ≠ [] := by
      rintro rfl
      simp at hn
    have hlast : way.getLast? ≠ some (Text.ofString "..") := by
      intro hdots
      exact (h _ (List.mem_of_getLast? hdots)).ne_dots rfl
    have hstep : normalStep false way (Text.ofString "..") = way.dropLast := by
      rw [normalStep, if_neg (by decide), if_neg]
      simp [hne, hlast]
    have hdrop : ∀ s ∈ way.dropLast, IsSegment s := fun s hs =>
      h s ((List.dropLast_sublist way).subset hs)
    rw [List.replicate_succ, List.foldl_cons, hstep, ih hdrop (by rw [List.length_dropLast]; omega),
      List.dropLast_eq_take, List.take_take, List.length_take]
    congr 1
    omega

/-! ## Specifiers -/

/-- The segments of the way from one place to another: up as far as they have nothing in common, and
down from there. -/
def wayBetween (source target : List Text) : List Text :=
  List.replicate (source.length - common source target) (Text.ofString "..") ++
    target.drop (common source target)

/-- The way between two places below a directory does not depend on that directory. -/
theorem route_append (cwd source target : Location) :
    route (cwd ++ source) (cwd ++ target) =
      match wayBetween source target with
      | [] => "."
      | way => along way := by
  have hlength : (cwd ++ source).length - (cwd.length + common source target) =
      source.length - common source target := by
    rw [List.length_append]
    omega
  unfold route
  simp only [common_append, hlength, List.drop_length_add_append]
  rfl

/-- The way between two places leads from the one to the other. -/
theorem foldl_wayBetween {source target : List Text} (hsource : ∀ s ∈ source, IsSegment s)
    (htarget : ∀ s ∈ target, IsSegment s) :
    (wayBetween source target).foldl (normalStep false) source = target := by
  have hle := common_le_length source target
  have hdown : ∀ s ∈ target.drop (common source target), IsSegment s :=
    fun s hs => htarget s (List.mem_of_mem_drop hs)
  rw [wayBetween, List.foldl_append, foldl_normalStep_dots hsource (by omega),
    foldl_normalStep_segments hdown]
  calc source.take (source.length - (source.length - common source target)) ++
        target.drop (common source target)
      = source.take (common source target) ++ target.drop (common source target) := by
        congr 2
        omega
    _ = target.take (common source target) ++ target.drop (common source target) := by
        rw [take_common]
    _ = target := List.take_append_drop _ _

theorem isPart_of_mem_wayBetween {source target : List Text} (htarget : ∀ s ∈ target, IsSegment s) :
    ∀ s ∈ wayBetween source target, IsPart s := by
  intro s hs
  rcases List.mem_append.1 hs with hs | hs
  · obtain rfl := (List.mem_replicate.1 hs).2
    exact ⟨by decide, by decide⟩
  · exact (htarget s (List.mem_of_mem_drop hs)).toIsPart

/-- What two ways have in common at their start has no say in the way between their ends. -/
theorem wayBetween_append (base source target : List Text) :
    wayBetween (base ++ source) (base ++ target) = wayBetween source target := by
  have hup : (base ++ source).length - (base.length + common source target) =
      source.length - common source target := by
    rw [List.length_append]
    omega
  rw [wayBetween, wayBetween, common_append, hup, List.drop_length_add_append]

/-- The relative path from one place to another, both seen from the working directory. -/
theorem relative_along (cwd : Location) {source target : List Text}
    (hsource : ∀ s ∈ source, IsSegment s) (htarget : ∀ s ∈ target, IsSegment s)
    (hne : target ≠ []) :
    relative cwd (along target) (if along source = "" then "." else along source) =
      match wayBetween source target with
      | [] => "."
      | way => along way := by
  have hstart : absolute cwd (if along source = "" then "." else along source) = cwd ++ source := by
    by_cases hnil : source = []
    · subst hnil
      rw [List.append_nil]
      rfl
    · have hempty : along source ≠ Text.ofString "" :=
        along_ne_nil (fun s hs => (hsource s hs).toIsPart) hnil
      rw [if_neg hempty, absolute_along cwd hsource hnil]
  rw [relative, hstart, absolute_along cwd htarget hne, route_append]

/-- A specifier is the way from the directory of the one module to the other, with a `.` in front
unless it starts with a dot by itself. -/
theorem specifier_along (cwd : Location) {source target : List Text} {name : Text}
    (hsource : ∀ s ∈ source, IsSegment s) (hname : slash ∉ name)
    (htarget : ∀ s ∈ target, IsSegment s) (hne : target ≠ []) :
    ∃ way, Options.specifier cwd (along (source ++ [name])) (along target) = along way ∧
      (way = Text.ofString "." :: wayBetween source target ∨
        way = wayBetween source target ∧ way ≠ []) := by
  have hdirectory := directory_along (fun s hs => (hsource s hs).toIsPart) hname
  unfold Options.specifier
  rw [hdirectory]
  simp only [relative_along cwd hsource htarget hne]
  cases hway : wayBetween source target with
  | nil => exact ⟨[Text.ofString "."], rfl, .inl rfl⟩
  | cons s rest =>
    dsimp only
    split
    · exact ⟨s :: rest, rfl, .inr ⟨rfl, by simp⟩⟩
    · refine ⟨Text.ofString "." :: s :: rest, ?_, .inl rfl⟩
      rw [along_cons (List.cons_ne_nil s rest)]
      rfl

/-- A specifier stays as it is when both modules are put below another directory, and wherever it
is asked for. -/
theorem specifier_below (cwd cwd' : Location) {base source target : List Text} {name : Text}
    (hbase : ∀ s ∈ base, IsSegment s) (hsource : ∀ s ∈ source, IsSegment s) (hname : slash ∉ name)
    (htarget : ∀ s ∈ target, IsSegment s) (hne : target ≠ []) :
    Options.specifier cwd (along (base ++ source ++ [name])) (along (base ++ target)) =
      Options.specifier cwd' (along (source ++ [name])) (along target) := by
  have hbelow : ∀ s ∈ base ++ source, IsSegment s := List.forall_mem_append.2 ⟨hbase, hsource⟩
  have hbelow' : ∀ s ∈ base ++ target, IsSegment s := List.forall_mem_append.2 ⟨hbase, htarget⟩
  unfold Options.specifier
  rw [directory_along (fun s hs => (hbelow s hs).toIsPart) hname,
    directory_along (fun s hs => (hsource s hs).toIsPart) hname]
  simp only [relative_along cwd hbelow hbelow' (List.append_ne_nil_of_right_ne_nil base hne),
    relative_along cwd' hsource htarget hne, wayBetween_append]

/-- **A module is found by its specifier**: joined to the directory of the module in which it
stands, a specifier is normally the path of the module that it was made for. File extensions do not
matter. -/
theorem normalize_join_specifier (cwd : Location) {source target : List Text} {name : Text}
    (hsource : ∀ s ∈ source, IsSegment s) (hname : slash ∉ name) {extension : Text}
    (hextension : slash ∉ extension) (htarget : ∀ s ∈ target, IsSegment s) (hne : target ≠ []) :
    normalize (join (directory (along (source ++ [name]) ++ extension))
      (Options.specifier cwd (along (source ++ [name])) (along target))) = along target := by
  have hsourceParts : ∀ s ∈ source, IsPart s := fun s hs => (hsource s hs).toIsPart
  have htargetParts : ∀ s ∈ target, IsPart s := fun s hs => (htarget s hs).toIsPart
  have hfile : along (source ++ [name]) ++ extension = along (source ++ [name ++ extension]) := by
    rw [along_concat, along_concat, List.append_assoc]
  have hdirectory : directory (along (source ++ [name]) ++ extension) = along source := by
    rw [hfile]
    exact directory_along hsourceParts (by simp [hname, hextension])
  obtain ⟨way, hspecifier, hway⟩ := specifier_along cwd hsource hname htarget hne
  have hbetween : ∀ s ∈ wayBetween source target, IsPart s := isPart_of_mem_wayBetween htarget
  have hwayNe : way ≠ [] := by
    rcases hway with rfl | ⟨-, h⟩
    · simp
    · exact h
  have hwayParts : ∀ s ∈ way, IsPart s := by
    rcases hway with rfl | ⟨rfl, -⟩
    · exact List.forall_mem_cons.2 ⟨⟨by decide, by decide⟩, hbetween⟩
    · exact hbetween
  -- The fold passes over the directory, then over the way; the `.` in front of it changes nothing.
  have hfold : (source ++ way).foldl (normalStep false) [] = target := by
    have hstart : source.foldl (normalStep false) [] = source := by
      rw [foldl_normalStep_segments hsource, List.nil_append]
    rw [List.foldl_append, hstart]
    rcases hway with rfl | ⟨rfl, -⟩
    · exact foldl_wayBetween hsource htarget
    · exact foldl_wayBetween hsource htarget
  rw [hdirectory, hspecifier, join_along hsourceParts hwayParts hwayNe,
    normalize_along (List.forall_mem_append.2 ⟨hsourceParts, hwayParts⟩) (by simp [hwayNe]), hfold]
  obtain ⟨x, rest, hx⟩ := List.exists_cons_of_ne_nil (along_ne_nil htargetParts hne)
  rw [hx]

end Path

end SchemaScribe
