import SchemaScribe.Proofs.Layout.Specifiers

/-!
# Specifiers lead to their modules

A specifier that is read from the directory of the module in which it stands leads to the module
that it was made for. This holds of all names and folders that are texts, whether they lead up,
start at the root, or double their slashes (`exists_importPath_resolved`).

The specifier is a row of segments that leads from the one place to the other (`walk_wayBetween`);
places hold no `.` and `..` (`isSegment_of_mem_absolute`), so that each `..` of the row takes off one
name. Places are what is left of paths in normal form (`resolved_eq_absolute`).
-/

namespace SchemaScribe

namespace Path

variable {cwd place start goal : Location} {directory path s source target : Text}
  {row way : List Text}

/-! ## Places hold no dots -/

theorem isSegment_of_mem_walk (hplace : ∀ s ∈ place, IsSegment s) (hrow : ∀ s ∈ row, slash ∉ s) :
    ∀ s ∈ walk place row, IsSegment s := by
  induction row generalizing place with
  | nil => exact hplace
  | cons segment rest ih =>
    obtain ⟨hsegment, hrest⟩ := List.forall_mem_cons.1 hrow
    exact ih (isSegment_of_mem_step hplace hsegment) hrest

/-- A place that a path names is made of segments that lead on. -/
theorem isSegment_of_mem_absolute (hcwd : ∀ s ∈ cwd, IsSegment s) (path : Text) :
    ∀ s ∈ absolute cwd path, IsSegment s := by
  refine isSegment_of_mem_walk (fun s hs => ?_) fun s hs => Text.not_mem_of_mem_split hs
  split at hs
  · cases hs
  · exact hcwd s hs

/-! ## Normal forms and places -/

/-- The segments of a path that is read in a directory, when it has been made normal. -/
def resolved (directory path : Text) : List Text :=
  (segments (normalize (join directory path))).filter (· ≠ [])

/-- At the root, segments are added to a normal path as steps are taken to a place. -/
theorem foldl_normalStep_rooted (hway : ∀ s ∈ way, IsSegment s) (hrow : ∀ s ∈ row, slash ∉ s) :
    row.foldl (normalStep true) way = walk way row := by
  induction row generalizing way with
  | nil => rfl
  | cons segment rest ih =>
    obtain ⟨hsegment, hrest⟩ := List.forall_mem_cons.1 hrow
    have hlast : way.getLast? ≠ some (Text.ofString "..") := fun h =>
      (hway _ (List.mem_of_getLast? h)).ne_dots rfl
    have hstep : normalStep true way segment = step way segment := by
      unfold normalStep step
      by_cases hdots : segment = ".."
      · simp [hdots, hlast]
      · simp [hdots]
    rw [List.foldl_cons, hstep, ih (isSegment_of_mem_step hway hsegment) hrest]
    rfl

theorem rootSlashes_of_isAbsolute (h : isAbsolute path = true) :
    ∃ n, rootSlashes path = n + 1 := by
  cases path with
  | nil => cases h
  | cons x rest =>
    rw [isAbsolute_cons] at h
    rw [rootSlashes, List.takeWhile_cons_of_pos (by simpa using h)]
    split
    · next hlength => cases hlength
    · exact ⟨1, rfl⟩
    · exact ⟨0, rfl⟩

theorem filter_segments_along (h : ∀ s ∈ way, IsPart s) (n : Nat) :
    (segments (List.replicate n slash ++ along way)).filter (· ≠ []) = way := by
  induction n with
  | zero =>
    by_cases hnil : way = []
    · subst hnil
      rfl
    · rw [List.replicate_zero, List.nil_append, segments_along h hnil]
      exact List.filter_eq_self.2 fun s hs => decide_eq_true (h s hs).ne_empty
  | succ n ih =>
    have hfirst : segments (slash :: (List.replicate n slash ++ along way)) =
        [] :: segments (List.replicate n slash ++ along way) := by
      rw [segments, Text.split, if_pos rfl, segments]
    rw [List.replicate_succ, List.cons_append, hfirst, List.filter_cons_of_neg (by simp), ih]

/-- The normal form of an absolute path tells the place that the path names. -/
theorem filter_segments_normalize (h : isAbsolute path = true) :
    (segments (normalize path)).filter (· ≠ []) = absolute [] path := by
  obtain ⟨n, hn⟩ := rootSlashes_of_isAbsolute h
  have hnone : ∀ s ∈ ([] : Location), IsSegment s := nofun
  have hfold : (segments path).foldl (normalStep true) [] = absolute [] path := by
    rw [absolute, h, if_pos rfl]
    exact foldl_normalStep_rooted hnone fun s hs => Text.not_mem_of_mem_split hs
  have hnormal : normalize path = List.replicate (n + 1) slash ++ along (absolute [] path) := by
    have hrooted : (n + 1 != 0) = true := rfl
    simp only [normalize, hn, hrooted, hfold, List.replicate_succ, List.cons_append]
  rw [hnormal]
  exact filter_segments_along (fun s hs => (isSegment_of_mem_absolute hnone path s hs).toIsPart) _

theorem isAbsolute_join (h : isAbsolute directory = true) (path : Text) :
    isAbsolute (join directory path) = true := by
  cases hpath : isAbsolute path with
  | true => rw [join_of_isAbsolute _ hpath, hpath]
  | false =>
    have hne : directory ≠ [] := by
      rintro rfl
      cases h
    rw [join_of_not_isAbsolute _ hpath, List.append_assoc, isAbsolute_append hne, h]

/-- A path that is read in a directory names what it names as seen from there. -/
theorem absolute_join_eq (directory path : Text) :
    absolute [] (join directory path) = absolute (absolute [] directory) path := by
  cases hpath : isAbsolute path with
  | true =>
    rw [join_of_isAbsolute _ hpath, absolute, absolute, hpath, if_pos rfl, if_pos rfl]
  | false => rw [absolute_join _ _ hpath, absolute_of_not_isAbsolute _ hpath]

/-- **Normal forms and places**: of a path in an absolute working directory, the segments of the
normal form are the place that it names. -/
theorem resolved_eq_absolute (h : isAbsolute directory = true) (path : Text) :
    resolved directory path = absolute (absolute [] directory) path := by
  rw [resolved, filter_segments_normalize (isAbsolute_join h path), absolute_join_eq]

/-! ## Ways between places -/

theorem walk_of_isSegment (place : Location) (h : ∀ s ∈ way, IsSegment s) :
    walk place way = place ++ way := by
  have hdots : Text.ofString ".." ∉ way := fun hmem => (h _ hmem).ne_dots rfl
  have hnames : names way = way :=
    List.filter_eq_self.2 fun s hs => decide_eq_true ⟨(h s hs).ne_empty, (h s hs).ne_dot⟩
  rw [walk_eq_append place hdots, hnames]

/-- Each `..` takes off one name. -/
theorem walk_replicate_dots (place : Location) (n : Nat) :
    walk place (List.replicate n (Text.ofString "..")) = place.take (place.length - n) := by
  induction n generalizing place with
  | zero => simp [walk]
  | succ n ih =>
    have hstep : step place (Text.ofString "..") = place.dropLast := by
      rw [step, if_neg (by decide), if_pos rfl]
    have hwalk : walk place (List.replicate (n + 1) (Text.ofString "..")) =
        walk place.dropLast (List.replicate n (Text.ofString "..")) := by
      rw [← hstep]
      rfl
    rw [hwalk, ih, List.dropLast_eq_take, List.take_take, List.length_take]
    congr 1
    omega

/-- **The way between two places** leads from the one to the other. -/
theorem walk_wayBetween (start : Location) (hgoal : ∀ s ∈ goal, IsSegment s) :
    walk start (wayBetween start goal) = goal := by
  have hle := common_le_length start goal
  have hdown : ∀ s ∈ goal.drop (common start goal), IsSegment s :=
    fun s hs => hgoal s (List.mem_of_mem_drop hs)
  rw [wayBetween, walk_append, walk_replicate_dots, walk_of_isSegment _ hdown]
  calc start.take (start.length - (start.length - common start goal)) ++
        goal.drop (common start goal)
      = start.take (common start goal) ++ goal.drop (common start goal) := by
        congr 2
        omega
    _ = goal.take (common start goal) ++ goal.drop (common start goal) := by rw [take_common]
    _ = goal := List.take_append_drop _ _

/-- A specifier is the path along a row of segments that leads from the directory of the one module
to the other. -/
theorem exists_specifier_eq_along
    (hstart : absolute cwd (if Path.directory source = "" then "." else Path.directory source) =
      start)
    (htarget : absolute cwd target = goal) (hgoal : ∀ s ∈ goal, IsSegment s) :
    ∃ way, Options.specifier cwd source target = along way ∧ way ≠ [] ∧ (∀ s ∈ way, IsPart s) ∧
      walk start way = goal := by
  have hway := walk_wayBetween start hgoal
  have hparts : ∀ s ∈ wayBetween start goal, IsPart s := isPart_of_mem_wayBetween hgoal
  have hdot : IsPart (Text.ofString ".") := ⟨by decide, by decide⟩
  have hroute := route_append [] start goal
  rw [List.nil_append, List.nil_append] at hroute
  rw [specifier_eq hstart htarget, hroute]
  cases hbetween : wayBetween start goal with
  | nil =>
    rw [hbetween] at hway
    refine ⟨[Text.ofString "."], rfl, List.cons_ne_nil _ _, ?_, hway⟩
    exact List.forall_mem_singleton.2 hdot
  | cons s rest =>
    rw [hbetween] at hway hparts
    dsimp only
    split
    · exact ⟨s :: rest, rfl, List.cons_ne_nil _ _, hparts, hway⟩
    · refine ⟨Text.ofString "." :: s :: rest, ?_, List.cons_ne_nil _ _, ?_, hway⟩
      · rw [along_cons (List.cons_ne_nil s rest)]
        rfl
      · exact List.forall_mem_cons.2 ⟨hdot, hparts⟩

/-- **A specifier leads to its module**: read from the directory of the module in which it stands, it
names what the path of the other module names. -/
theorem absolute_join_specifier (hcwd : ∀ s ∈ cwd, IsSegment s) (source target : Text) :
    absolute cwd (join (Path.directory source) (Options.specifier cwd source target)) =
      absolute cwd target := by
  obtain ⟨way, hspecifier, hne, hparts, hwalk⟩ :=
    exists_specifier_eq_along rfl rfl (isSegment_of_mem_absolute hcwd target)
  -- The empty directory is read as `.`, and both are where the path is read.
  have hstart : absolute cwd (if Path.directory source = "" then "." else Path.directory source) =
      absolute cwd (Path.directory source) := by
    split
    · next hnil => rw [hnil]; rfl
    · rfl
  rw [hspecifier, absolute_join _ _ (isAbsolute_along hparts), segments_along hparts hne, ← hstart,
    hwalk]

end Path

open SchemaScribe.Path (resolved)

theorem Layout.base_eq_nil_iff {root folder : Text} :
    Layout.base root folder = [] ↔ root = [] ∧ folder = [] := by
  unfold Layout.base
  split
  · next hroot => simp [hroot]
  · next hroot =>
    split
    · next hfolder => simp [hroot]
    · exact iff_of_false (Path.join_ne_nil hroot folder) fun hnil => hroot hnil.1

namespace Options

/-- The output root and the folders of the kinds are texts. -/
structure HasTextFolders (options : Options) : Prop where
  root : ∃ root, options.outputRoot = .text root
  folder : ∀ kind, ∃ folder, options.folder kind = .text folder

/-- Some part of the path of an item's module is not empty. -/
def HasPath (options : Options) (kind : ItemKind) (name : Text) : Prop :=
  options.outputRoot ≠ .text "" ∨ options.folder kind ≠ .text "" ∨ name ≠ ""

instance (options : Options) (kind : ItemKind) (name : Text) :
    Decidable (options.HasPath kind name) := inferInstanceAs (Decidable (_ ∨ _))

variable {options : Options} {kind : ItemKind} {name : Text}

/-- An item has a path exactly when a part of it is not empty, and then the path is not empty
either. -/
theorem HasTextFolders.exists_modulePath_iff (h : options.HasTextFolders) :
    (∃ path, options.modulePath kind (.text name) = .ok path) ↔ options.HasPath kind name := by
  obtain ⟨root, hroot⟩ := h.root
  obtain ⟨folder, hfolder⟩ := h.folder kind
  rw [modulePath_text hroot hfolder, HasPath, hroot, hfolder]
  simp only [ne_eq, Json.text.injEq, Path.ofString_empty]
  by_cases hnil : Layout.base root folder = [] ∧ name = []
  · rw [if_pos hnil]
    obtain ⟨hroot, hfolder⟩ := Layout.base_eq_nil_iff.1 hnil.1
    simp [hroot, hfolder, hnil.2]
  · rw [if_neg hnil]
    refine iff_of_true ⟨_, rfl⟩ ?_
    by_contra hparts
    push Not at hparts
    exact hnil ⟨Layout.base_eq_nil_iff.2 ⟨hparts.1, hparts.2.1⟩, hparts.2.2⟩

/-- **Specifiers lead to their modules.** Whatever the texts of the folders and of the names are,
every item that has a path has a specifier as seen from every other one, in every absolute working
directory. Read from the directory of the module in which it stands, the specifier comes to the same
segments as the path of the module that it was made for. -/
theorem exists_importPath_resolved (h : options.HasTextFolders) {fromKind kind : ItemKind}
    {source target : Text} (hsource : options.HasPath fromKind source)
    (htarget : options.HasPath kind target) {place : Text}
    (hplace : Path.isAbsolute place = true) :
    ∃ sourcePath targetPath specifier,
      options.modulePath fromKind (.text source) = .ok sourcePath ∧
      options.modulePath kind (.text target) = .ok targetPath ∧
      importPath (Path.absolute [] place) options fromKind (.text source) kind (.text target) =
        .ok specifier ∧
      resolved place (Path.join (Path.directory sourcePath) specifier) =
        resolved place targetPath := by
  obtain ⟨sourcePath, hsourcePath⟩ := h.exists_modulePath_iff.2 hsource
  obtain ⟨targetPath, htargetPath⟩ := h.exists_modulePath_iff.2 htarget
  refine ⟨sourcePath, targetPath, specifier (Path.absolute [] place) sourcePath targetPath,
    hsourcePath, htargetPath, ?_, ?_⟩
  · rw [importPath, hsourcePath, htargetPath]
    rfl
  · have hsegments : ∀ s ∈ Path.absolute [] place, Path.IsSegment s :=
      Path.isSegment_of_mem_absolute (by simp) place
    rw [Path.resolved_eq_absolute hplace, Path.resolved_eq_absolute hplace,
      Path.absolute_join_specifier hsegments]

/-- Options that put tables at the root, and enumerations above the working directory. -/
def scattered : Options :=
  { outputRoot := .text "", tableFolder := .text "//srv/./models",
    enumFolder := .text "../..//kinds/" }

theorem exists_importPath_resolved_scattered :
    scattered.HasTextFolders ∧ scattered.HasPath .table "a/../User" ∧
      scattered.HasPath .enumeration "" ∧ Path.isAbsolute "/home/me/work" = true ∧
      ∃ specifier, importPath ["home", "me", "work"] scattered .table (.text "a/../User")
          .enumeration (.text "") = .ok specifier ∧
        resolved "/home/me/work" (Path.join "//srv/./models/a/.." specifier) =
          (["home", "kinds"] : Path.Location) := by
  have hfolders : scattered.HasTextFolders :=
    ⟨⟨_, rfl⟩, fun kind => by cases kind <;> exact ⟨_, rfl⟩⟩
  have hsource : scattered.HasPath .table "a/../User" := by decide
  have htarget : scattered.HasPath .enumeration "" := by decide
  have hplace : Path.isAbsolute "/home/me/work" = true := by decide
  have hcwd : Path.absolute [] "/home/me/work" =
      (["home", "me", "work"] : Path.Location) := by decide
  obtain ⟨sourcePath, targetPath, specifier, hsourcePath, htargetPath, hspecifier, hsame⟩ :=
    exists_importPath_resolved hfolders hsource htarget hplace
  obtain rfl : "//srv/./models/a/../User" = sourcePath :=
    Except.ok.inj (hsourcePath.symm.trans (by decide)).symm
  obtain rfl : "../..//kinds/" = targetPath :=
    Except.ok.inj (htargetPath.symm.trans (by decide)).symm
  have hdirectory : Path.directory "//srv/./models/a/../User" = "//srv/./models/a/.." := by decide
  have hgoal : resolved "/home/me/work" "../..//kinds/" =
      (["home", "kinds"] : Path.Location) := by decide
  rw [hdirectory, hgoal] at hsame
  exact ⟨hfolders, hsource, htarget, hplace, specifier, hcwd ▸ hspecifier, hsame⟩

end Options

end SchemaScribe
