import SchemaScribe.Proofs.Layout.FileName
import SchemaScribe.Proofs.Path.Normal
import SchemaScribe.Proofs.Path.Places

/-!
# Which specifiers are relative

A module is referred to by a relative path if its specifier is `.` or `..`, or starts with one of
these and a slash; anything else is taken for the name of a package. Below folders that lead down, a
specifier is relative exactly when the way from the directory of the one module to the other does
not start by leading down to a name that starts with a dot (`importPath_isRelative_iff`): for such a
name no `./` is put in front, since there is a dot already (`hidden_folder`).
-/

namespace SchemaScribe

namespace Path

/-- A relative path that leads down only. -/
structure IsForward (path : Text) : Prop where
  relative : isAbsolute path = false
  no_dots : Text.ofString ".." ∉ segments path

instance (path : Text) : Decidable (IsForward path) :=
  decidable_of_iff (isAbsolute path = false ∧ ∀ s ∈ segments path, s ≠ Text.ofString "..")
    ⟨fun h => ⟨h.1, fun hmem => h.2 _ hmem rfl⟩,
      fun h => ⟨h.relative, fun _ hs heq => h.no_dots (heq ▸ hs)⟩⟩

/-- A specifier that is taken for a relative path. -/
def IsRelative (specifier : Text) : Prop :=
  specifier = "." ∨ specifier = ".." ∨ Text.ofString "./" <+: specifier ∨
    Text.ofString "../" <+: specifier

instance (specifier : Text) : Decidable (IsRelative specifier) :=
  inferInstanceAs (Decidable (_ ∨ _))

variable {cwd start goal : Location} {path source target word s : Text} {rest way : List Text}

/-! ## First segments -/

/-- A path starts with a segment when it is the segment, or the segment and a slash stand in front
of it. -/
theorem head?_segments_eq_some_iff (hword : slash ∉ word) :
    (segments path).head? = some word ↔ path = word ∨ word ++ [slash] <+: path := by
  constructor
  · intro h
    obtain ⟨others, hothers⟩ := List.head?_eq_some_iff.1 h
    have hpath : along (segments path) = path := Text.joined_split slash path
    rw [hothers] at hpath
    by_cases hnil : others = []
    · subst hnil
      exact .inl hpath.symm
    · rw [along_cons hnil] at hpath
      exact .inr ⟨along others, by rw [← hpath, List.append_assoc, List.singleton_append]⟩
  · rintro (rfl | ⟨more, rfl⟩)
    · rw [segments, Text.split_of_not_mem hword, List.head?_cons]
    · rw [segments, List.append_assoc, List.singleton_append, Text.split_append_cons,
        Text.split_of_not_mem hword, List.singleton_append, List.head?_cons]

/-- A specifier is relative by its first segment. -/
theorem isRelative_iff : IsRelative path ↔
    (segments path).head? = some (Text.ofString ".") ∨
      (segments path).head? = some (Text.ofString "..") := by
  have hdot : Text.ofString "./" = Text.ofString "." ++ [slash] := rfl
  have hdots : Text.ofString "../" = Text.ofString ".." ++ [slash] := rfl
  rw [head?_segments_eq_some_iff (by decide), head?_segments_eq_some_iff (by decide), IsRelative,
    hdot, hdots]
  tauto

theorem head?_segments_along (hs : slash ∉ s) (rest : List Text) :
    (segments (along (s :: rest))).head? = some s := by
  refine (head?_segments_eq_some_iff hs).2 ?_
  by_cases hnil : rest = []
  · subst hnil
    exact .inl rfl
  · rw [along_cons hnil, ← List.singleton_append, ← List.append_assoc]
    exact .inr (List.prefix_append _ _)

theorem isRelative_along_iff (hs : slash ∉ s) (rest : List Text) :
    IsRelative (along (s :: rest)) ↔ s = "." ∨ s = ".." := by
  rw [isRelative_iff, head?_segments_along hs, Option.some.injEq, Option.some.injEq]

theorem head?_along (hs : s ≠ "") (rest : List Text) : (along (s :: rest)).head? = s.head? := by
  obtain ⟨x, tail, rfl⟩ := List.exists_cons_of_ne_nil hs
  cases rest <;> rfl

/-! ## Ways between places -/

theorem common_lt_of_not_isPrefix (h : ¬ start <+: goal) : common start goal < start.length := by
  refine lt_of_le_of_ne (common_le_length start goal) fun heq => h ?_
  have htake := take_common start goal
  rw [heq, List.take_length] at htake
  exact htake ▸ List.take_prefix _ _

/-- To what is not below a place the way leads up first. -/
theorem exists_route_of_not_isPrefix (h : ¬ start <+: goal) :
    ∃ rest, route start goal = along (Text.ofString ".." :: rest) := by
  obtain ⟨n, hn⟩ := Nat.exists_eq_succ_of_ne_zero
    (Nat.sub_ne_zero_of_lt (common_lt_of_not_isPrefix h))
  refine ⟨List.replicate n (Text.ofString "..") ++ goal.drop (common start goal), ?_⟩
  unfold route
  simp only [hn, Nat.succ_eq_add_one, List.replicate_succ, List.cons_append]
  rfl

/-- The way down from a place. -/
theorem route_append_self (start way : Location) :
    route start (start ++ way) =
      match way with
      | [] => "."
      | way => along way := by
  have h := route_append start [] way
  rwa [List.append_nil] at h

/-! ## Specifiers -/

/-- A specifier by the places of the directory and of the module. -/
theorem specifier_eq
    (hstart : absolute cwd (if directory source = "" then "." else directory source) = start)
    (hgoal : absolute cwd target = goal) :
    Options.specifier cwd source target =
      if (route start goal).head? == some (.scalar '.') then route start goal
      else Text.ofString "./" ++ route start goal := by
  rw [Options.specifier, relative, hstart, hgoal]

/-- Down from the directory, a name that starts with a dot is not set off by another one. -/
theorem specifier_down
    (hstart : absolute cwd (if directory source = "" then "." else directory source) = start)
    (hgoal : absolute cwd target = start ++ s :: rest) (hs : s ≠ "") :
    Options.specifier cwd source target =
      if s.head? = some (.scalar '.') then along (s :: rest)
      else along (Text.ofString "." :: s :: rest) := by
  have hroute : route start (start ++ s :: rest) = along (s :: rest) := route_append_self start _
  rw [specifier_eq hstart hgoal, hroute, head?_along hs, along_cons (List.cons_ne_nil s rest)]
  simp only [beq_iff_eq]
  rfl

/-- **Which specifiers are relative**, by the places of the directory and of the module. -/
theorem isRelative_specifier_iff
    (hstart : absolute cwd (if directory source = "" then "." else directory source) = start)
    (hgoal : absolute cwd target = goal)
    (hdown : ∀ s rest, goal = start ++ s :: rest → IsSegment s) :
    IsRelative (Options.specifier cwd source target) ↔
      ∀ s rest, goal = start ++ s :: rest → s.head? ≠ some (.scalar '.') := by
  by_cases hbelow : start <+: goal
  · obtain ⟨way, rfl⟩ := hbelow
    cases way with
    | nil =>
      rw [specifier_eq hstart hgoal, route_append_self]
      exact iff_of_true (.inl rfl) fun s rest h => by simp at h
    | cons s rest =>
      have hs := hdown s rest rfl
      have honly : (∀ t more, start ++ s :: rest = start ++ t :: more →
          t.head? ≠ some (.scalar '.')) ↔ s.head? ≠ some (.scalar '.') := by
        refine ⟨fun h => h s rest rfl, fun h t more heq => ?_⟩
        obtain ⟨rfl, -⟩ := List.cons.inj (List.append_cancel_left heq)
        exact h
      rw [specifier_down hstart hgoal hs.ne_empty, honly]
      split
      · next hdot =>
        rw [isRelative_along_iff hs.no_slash]
        exact iff_of_false (not_or.2 ⟨hs.ne_dot, hs.ne_dots⟩) (not_not.2 hdot)
      · next hdot =>
        rw [isRelative_along_iff (by decide)]
        exact iff_of_true (.inl rfl) hdot
  · obtain ⟨rest, hroute⟩ := exists_route_of_not_isPrefix hbelow
    have hhead : (route start goal).head? = some (.scalar '.') := by
      rw [hroute, head?_along (by decide)]
      rfl
    rw [specifier_eq hstart hgoal, hhead, if_pos (by decide), hroute,
      isRelative_along_iff (by decide)]
    exact iff_of_true (.inr rfl) fun s more h => absurd ⟨s :: more, h.symm⟩ hbelow

/-- What a specifier holds, apart from dots and slashes, the way down to the module holds. -/
theorem not_mem_specifier {x : CodePoint}
    (hstart : absolute cwd (if directory source = "" then "." else directory source) = start)
    (hgoal : absolute cwd target = goal) (hslash : x ≠ slash) (hdot : x ≠ .scalar '.')
    (h : ∀ s ∈ goal.drop (common start goal), x ∉ s) : x ∉ Options.specifier cwd source target := by
  have hroute : x ∉ route start goal := by
    have hway : ∀ s ∈ List.replicate (start.length - common start goal) (Text.ofString "..") ++
        goal.drop (common start goal), x ∉ s := by
      refine List.forall_mem_append.2 ⟨fun s hs => ?_, h⟩
      obtain rfl := (List.mem_replicate.1 hs).2
      simpa [Text.ofString, Text.ofChars] using hdot
    unfold route
    dsimp only
    split
    · simpa [Text.ofString, Text.ofChars] using hdot
    · exact not_mem_along hslash hway
  rw [specifier_eq hstart hgoal]
  split
  · exact hroute
  · rw [List.mem_append, not_or]
    exact ⟨by simpa [Text.ofString, Text.ofChars] using ⟨hdot, hslash⟩, hroute⟩

/-! ## Steps below a working directory -/

/-- Whether a step ends below a place does not depend on the directory that both are in. -/
theorem step_append_eq_iff {folder : List Text} :
    step (cwd ++ way) path = cwd ++ folder ++ s :: rest ↔ step way path = folder ++ s :: rest := by
  rw [List.append_assoc, step, step]
  split
  · rw [List.append_right_inj]
  split
  · by_cases hnil : way = []
    · subst hnil
      refine iff_of_false (fun h => ?_) (by simp)
      have hlength := congrArg List.length h
      simp only [List.append_nil, List.length_dropLast, List.length_append,
        List.length_cons] at hlength
      omega
    · rw [List.dropLast_append_of_ne_nil hnil, List.append_right_inj]
  · rw [List.append_assoc, List.append_right_inj]

/-- What a step leads to is made of segments that lead on, if it started from such. -/
theorem isSegment_of_mem_step (hway : ∀ s ∈ way, IsSegment s) (hpath : slash ∉ path) :
    ∀ s ∈ step way path, IsSegment s := by
  intro s hs
  rw [step] at hs
  split at hs
  · exact hway s hs
  next hlead =>
  obtain ⟨hempty, hdot⟩ := not_or.1 hlead
  split at hs
  · exact hway s ((List.dropLast_sublist way).subset hs)
  · next hdots =>
    rcases List.mem_append.1 hs with hs | hs
    · exact hway s hs
    · obtain rfl := List.mem_singleton.1 hs
      exact ⟨⟨hempty, hpath⟩, hdot, hdots⟩

end Path

open SchemaScribe.Path (IsForward IsPart IsRelative IsSegment Location names segments)

namespace Layout

/-- Below folders that lead down, the folder of a kind is below the working directory. -/
theorem absolute_base (cwd : Location) {root folder : Text} (hroot : IsForward root)
    (hfolder : IsForward folder) :
    Path.absolute cwd (base root folder) =
      cwd ++ (names (segments root) ++ names (segments folder)) := by
  have hplace : ∀ {path : Text} (place : Location), IsForward path →
      Path.walk place (segments path) = place ++ names (segments path) :=
    fun place h => Path.walk_eq_append place h.no_dots
  have hnone : names (segments []) = [] := rfl
  unfold base
  split
  · next hnil =>
    rw [hnil, hnone, List.nil_append, Path.absolute_of_not_isAbsolute cwd hfolder.relative,
      hplace cwd hfolder]
  · split
    · next hnil =>
      rw [hnil, hnone, List.append_nil, Path.absolute_of_not_isAbsolute cwd hroot.relative,
        hplace cwd hroot]
    · rw [Path.absolute_join cwd root hfolder.relative,
        Path.absolute_of_not_isAbsolute cwd hroot.relative, hplace cwd hroot, hplace _ hfolder,
        List.append_assoc]

end Layout

namespace Options

/-- The output root and the folders of the kinds are texts, and all are paths that lead down. -/
structure HasForwardFolders (options : Options) : Prop where
  root : ∃ root, options.outputRoot = .text root ∧ IsForward root
  folder : ∀ kind, ∃ folder, options.folder kind = .text folder ∧ IsForward folder

/-- The names of the folders in which the items of a kind are. -/
def folderWay (options : Options) (kind : ItemKind) : List Text :=
  names (segments options.outputRoot.toText) ++ names (segments (options.folder kind).toText)

variable {options : Options} {kind : ItemKind} {name : Text}

/-- Where the module of an item is, and where its directory is. -/
theorem exists_modulePath_of_isForward {root folder : Text}
    (hroot : options.outputRoot = .text root) (hrootForward : IsForward root)
    (hfolder : options.folder kind = .text folder) (hfolderForward : IsForward folder)
    (cwd : Location) (hname : IsPart name) :
    ∃ path, options.modulePath kind (.text name) = .ok path ∧
      Path.absolute cwd path = Path.step (cwd ++ options.folderWay kind) name ∧
      Path.absolute cwd (if Path.directory path = "" then "." else Path.directory path) =
        cwd ++ options.folderWay kind := by
  have hway : options.folderWay kind = names (segments root) ++ names (segments folder) := by
    rw [folderWay, hroot, hfolder]
    rfl
  have hbase := Layout.absolute_base cwd hrootForward hfolderForward
  have hne : name ≠ [] := hname.ne_empty
  have hsegments : segments name = [name] := Text.split_of_not_mem hname.no_slash
  refine ⟨Path.join (Layout.base root folder) name, ?_, ?_, ?_⟩
  · rw [modulePath_text hroot hfolder, if_neg fun hnil => hne hnil.2, Layout.place, if_neg hne]
  · rw [Path.absolute_join cwd _ (Path.isAbsolute_of_not_mem hname.no_slash), hbase, hsegments,
      hway]
    rfl
  · rw [Path.absolute_directory_join cwd _ hname.no_slash, hbase, hway]

theorem HasForwardFolders.exists_modulePath (h : options.HasForwardFolders) (cwd : Location)
    (kind : ItemKind) (hname : IsPart name) :
    ∃ path, options.modulePath kind (.text name) = .ok path ∧
      Path.absolute cwd path = Path.step (cwd ++ options.folderWay kind) name ∧
      Path.absolute cwd (if Path.directory path = "" then "." else Path.directory path) =
        cwd ++ options.folderWay kind := by
  obtain ⟨root, hroot, hrootForward⟩ := h.root
  obtain ⟨folder, hfolder, hfolderForward⟩ := h.folder kind
  exact exists_modulePath_of_isForward hroot hrootForward hfolder hfolderForward cwd hname

theorem HasForwardFolders.isSegment_of_mem_folderWay (h : options.HasForwardFolders) :
    ∀ s ∈ options.folderWay kind, IsSegment s := by
  obtain ⟨root, hroot, hrootForward⟩ := h.root
  obtain ⟨folder, hfolder, hfolderForward⟩ := h.folder kind
  rw [folderWay, hroot, hfolder]
  exact List.forall_mem_append.2 ⟨Path.isSegment_of_mem_names hrootForward.no_dots,
    Path.isSegment_of_mem_names hfolderForward.no_dots⟩

/-- **When a specifier is relative.** Below folders that lead down, every item has a specifier as
seen from every other. It is a relative path exactly when the way to its module, from the directory
of the other one, does not start by leading down to a name that starts with a dot. Where it does,
the specifier starts with that name. -/
theorem importPath_isRelative_iff (h : options.HasForwardFolders) (cwd : Location)
    {fromKind kind : ItemKind} {source target : Text} (hsource : IsPart source)
    (htarget : IsPart target) :
    ∃ path, importPath cwd options fromKind (.text source) kind (.text target) = .ok path ∧
      (IsRelative path ↔ ∀ s rest,
        Path.step (options.folderWay kind) target = options.folderWay fromKind ++ s :: rest →
          s.head? ≠ some (.scalar '.')) ∧
      ∀ s rest,
        Path.step (options.folderWay kind) target = options.folderWay fromKind ++ s :: rest →
          path = Path.along (if s.head? = some (.scalar '.') then s :: rest
            else Text.ofString "." :: s :: rest) := by
  obtain ⟨sourcePath, hsourcePath, -, hstart⟩ := h.exists_modulePath cwd fromKind hsource
  obtain ⟨targetPath, htargetPath, hgoal, -⟩ := h.exists_modulePath cwd kind htarget
  have hsegment : ∀ s rest,
      Path.step (options.folderWay kind) target = options.folderWay fromKind ++ s :: rest →
        IsSegment s := by
    intro s rest hstep
    have hmem : s ∈ Path.step (options.folderWay kind) target :=
      hstep ▸ List.mem_append_right _ List.mem_cons_self
    exact Path.isSegment_of_mem_step h.isSegment_of_mem_folderWay htarget.no_slash s hmem
  refine ⟨specifier cwd sourcePath targetPath, ?_, ?_, ?_⟩
  · rw [importPath, hsourcePath, htargetPath]
    rfl
  · rw [Path.isRelative_specifier_iff hstart hgoal fun s rest hdown =>
      hsegment s rest (Path.step_append_eq_iff.1 hdown)]
    simp only [Path.step_append_eq_iff]
  · intro s rest hstep
    rw [Path.specifier_down hstart (hgoal.trans (Path.step_append_eq_iff.2 hstep))
      (hsegment s rest hstep).ne_empty]
    split <;> rfl

/-- Options with a folder of the given name for enumerations, beside or below that of tables. -/
def withEnumFolder (folder : String) : Options :=
  { tableFolder := .text "models", enumFolder := .text folder }

theorem hasForwardFolders_withEnumFolder {folder : String} (h : IsForward folder) :
    (withEnumFolder folder).HasForwardFolders where
  root := ⟨_, rfl, by decide⟩
  folder kind := by
    cases kind
    · exact ⟨_, rfl, by decide⟩
    · exact ⟨_, rfl, h⟩

theorem importPath_isRelative_iff_beside :
    (withEnumFolder ".enums").HasForwardFolders ∧ IsPart "User" ∧ IsPart "Status" ∧
      ∃ path, importPath [] (withEnumFolder ".enums") .table (.text "User") .enumeration
        (.text "Status") = .ok path ∧ IsRelative path := by
  have hfolders : (withEnumFolder ".enums").HasForwardFolders :=
    hasForwardFolders_withEnumFolder (by decide)
  have huser : IsPart "User" := ⟨by decide, by decide⟩
  have hstatus : IsPart "Status" := ⟨by decide, by decide⟩
  have hfrom : folderWay (withEnumFolder ".enums") .table = ["ts-model", "models"] := by
    decide +kernel
  have hto : Path.step (folderWay (withEnumFolder ".enums") .enumeration) "Status" =
      ["ts-model", ".enums", "Status"] := by decide +kernel
  obtain ⟨path, hpath, hiff, -⟩ := importPath_isRelative_iff hfolders [] huser hstatus
  refine ⟨hfolders, huser, hstatus, path, hpath, hiff.2 fun s rest hdown => ?_⟩
  rw [hfrom, hto] at hdown
  exact absurd (List.cons.inj (List.cons.inj hdown).2).1 (by decide)

/-- In a folder below that of tables whose name starts with a dot, the enumerations are taken for
modules of a package of that name. -/
theorem hidden_folder :
    (withEnumFolder "models/.enums").HasForwardFolders ∧ IsPart "User" ∧ IsPart "Status" ∧
      importPath ["work"] (withEnumFolder "models/.enums") .table (.text "User") .enumeration
        (.text "Status") = .ok ".enums/Status" ∧
      ¬ IsRelative ".enums/Status" :=
  ⟨hasForwardFolders_withEnumFolder (by decide), ⟨by decide, by decide⟩, ⟨by decide, by decide⟩,
    by decide +kernel, by decide⟩

end Options

end SchemaScribe
