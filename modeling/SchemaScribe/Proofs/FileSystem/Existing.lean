import SchemaScribe.Proofs.FileSystem.Touching

/-!
# Files that are there already

A writer that may not overwrite files asks whether the file of a path is there before it makes the
directories on the way. So it finds every file that is there, unless the path goes up from a place
at which there is no directory yet (`FileSystem.IsDetour`): such a path leads nowhere when it is
asked for and to the file when it is written. Through any row of calls, whether they fail or not,
only a detour changes a file that is there (`kept_or_detour`), and a detour does
(`detour_overwrites`).
-/

namespace SchemaScribe

open SchemaScribe.Path (Location)

namespace FileSystem

variable {fs other later : FileSystem} {path : FilePath}

/-! ## Paths that lead through directories -/

/-- The path goes up from a place at which there is no directory. -/
def IsDetour (fs : FileSystem) (path : FilePath) : Prop :=
  ∃ names rest, path.parts = names ++ Text.ofString ".." :: rest ∧
    fs.root.hasDirectory ((⟨path.anchor, names⟩ : FilePath).place fs.cwd) = false

/-- Directories that are made later make no detour. -/
theorem IsDetour.of_extends (h : later.IsDetour path) (hextends : fs.Extends later) :
    fs.IsDetour path := by
  obtain ⟨names, rest, hparts, hnone⟩ := h
  rw [hextends.cwd] at hnone
  exact ⟨names, rest, hparts, hextends.hasDirectory_eq_false hnone⟩

/-- All names of a path that names a file can be passed, and the last one is the file's own. -/
theorem Names.exists_name (h : fs.Names path) : ∃ (names : List Text) (name : Text),
    path.parts = names ++ [name] ∧ name ≠ ".." ∧ isTooLong name = false ∧
    ∀ part ∈ names, part = ".." ∨ isTooLong part = false := by
  obtain ⟨dots, place, node, hslot⟩ := h.exists_slot
  obtain ⟨names, name, here, there, entries, hparts, hstart, hwalk, -, hname, hshort, -, -⟩ :=
    slot_eq_ok_iff.1 hslot
  refine ⟨names, name, hparts, hname, hshort, ?_⟩
  have hin := isIn_of_start hstart
  clear hstart hslot hparts
  induction names generalizing here with
  | nil => simp
  | cons part rest ih =>
    obtain ⟨next, hnext, hrest⟩ := walk_cons_eq_ok_iff.1 hwalk
    obtain ⟨-, hpart, -, hnextIn⟩ := (enter_eq_ok_iff hin).1 hnext
    exact List.forall_mem_cons.2 ⟨hpart, ih next hrest hnextIn⟩

/-- Directories can be walked along. -/
theorem exists_walk {here : Standing} {names : List Text} (hin : here.IsIn fs)
    (hdirectories : ∀ pre post, names = pre ++ post →
      fs.root.hasDirectory (pre.foldl FilePath.stepTo here.trail.reverse) = true)
    (hshort : ∀ part ∈ names, part = ".." ∨ isTooLong part = false) :
    ∃ there, fs.walk here names = .ok there ∧ there.node.isDirectory = true := by
  have hhere : here.node.isDirectory = true := by
    obtain ⟨node, hget, hnode⟩ :=
      Node.hasDirectory_eq_true_iff.1 (hdirectories [] names rfl)
    obtain rfl : node = here.node := Option.some.inj (hget.symm.trans hin)
    exact hnode
  induction names generalizing here with
  | nil => exact ⟨here, rfl, hhere⟩
  | cons part rest ih =>
    obtain ⟨hpart, hrest⟩ := List.forall_mem_cons.1 hshort
    obtain ⟨node, hget, hnode⟩ :=
      Node.hasDirectory_eq_true_iff.1 (hdirectories [part] rest rfl)
    rw [List.foldl_cons, List.foldl_nil, ← reverse_trailTo] at hget
    have hnextIn : Standing.IsIn ⟨trailTo here.trail part, node⟩ fs := hget
    obtain ⟨there, hwalk, hthere⟩ := ih hnextIn (fun pre post hsplit => by
      have := hdirectories (part :: pre) post (by rw [hsplit, List.cons_append])
      rwa [List.foldl_cons, ← reverse_trailTo] at this) hrest hnode
    exact ⟨there, walk_cons_eq_ok_iff.2
      ⟨_, (enter_eq_ok_iff hin).2 ⟨hhere, hpart, rfl, hnextIn⟩, hwalk⟩, hthere⟩

/-- Below a path that is no detour all directories are there if its file is. -/
theorem hasDirectory_of_file? {names : List Text} {name : Text} {bytes : List UInt8}
    (hparts : path.parts = names ++ [name]) (hname : name ≠ "..")
    (hdirect : ¬ fs.IsDetour path) (hfile : fs.file? (path.place fs.cwd) = some bytes)
    {pre post : List Text} (hsplit : names = pre ++ post) :
    fs.root.hasDirectory ((⟨path.anchor, pre⟩ : FilePath).place fs.cwd) = true := by
  -- From the file backwards: a name leads down from a directory, and `..` up from one.
  induction post generalizing pre with
  | nil =>
    obtain rfl : names = pre := by rw [hsplit, List.append_nil]
    have hplace : path.place fs.cwd =
        (⟨path.anchor, names⟩ : FilePath).place fs.cwd ++ [FilePath.plain name] := by
      rw [FilePath.place, hparts, List.foldl_append, List.foldl_cons, List.foldl_nil,
        FilePath.stepTo, if_neg hname]
      rfl
    by_contra hnone
    rw [Bool.not_eq_true] at hnone
    have hbelow : fs.file? (path.place fs.cwd) = none := by
      rw [hplace]
      exact Node.file?_append_eq_none hnone (by simp)
    cases hbelow.symm.trans hfile
  | cons part rest ih =>
    by_cases hdots : part = ".."
    · by_contra hnone
      rw [Bool.not_eq_true] at hnone
      exact hdirect ⟨pre, rest ++ [name], by rw [hparts, hsplit, hdots]; simp, hnone⟩
    · have hnext := ih (show names = (pre ++ [part]) ++ rest by rw [hsplit, List.append_assoc]; rfl)
      by_contra hnone
      rw [Bool.not_eq_true] at hnone
      refine Node.not_isPrefix_of_hasDirectory hnone hnext ⟨[FilePath.plain part], ?_⟩
      rw [FilePath.place, FilePath.place, List.foldl_append, List.foldl_cons, List.foldl_nil,
        FilePath.stepTo, if_neg hdots]

/-- **A file that is there is found**, by each path that names it at any time and is no detour. -/
theorem Names.of_file? (h : other.Names path) (hdirect : ¬ fs.IsDetour path) {bytes : List UInt8}
    (hfile : fs.file? (path.place fs.cwd) = some bytes) : fs.Names path := by
  obtain ⟨names, name, hparts, hname, hshort, hnames⟩ := h.exists_name
  have hdirectories := fun pre post (hsplit : names = pre ++ post) =>
    hasDirectory_of_file? hparts hname hdirect hfile hsplit
  have hstart : ∃ here, fs.start path = .ok here := by
    obtain ⟨node, hget, -⟩ := Node.hasDirectory_eq_true_iff.1 (hdirectories [] names rfl)
    unfold start
    split
    · next hanchor =>
      rw [FilePath.place, List.foldl_nil, if_pos hanchor] at hget
      exact ⟨⟨fs.cwd.reverse, node⟩, by rw [get?, hget]⟩
    · exact ⟨_, rfl⟩
  obtain ⟨here, hstart⟩ := hstart
  have hin := isIn_of_start hstart
  obtain ⟨there, hwalk, hthere⟩ := exists_walk hin (fun pre post hsplit => by
    rw [reverse_trail_of_start hstart]
    exact hdirectories pre post hsplit) hnames
  cases hnode : there.node with
  | file content => simp [hnode, Node.isDirectory] at hthere
  | directory entries =>
    exact ⟨h.ask, .isDirectory, _, _, slot_eq_ok_iff.2 ⟨names, name, here, there, entries, hparts,
      hstart, hwalk, hnode, hname, hshort, rfl, rfl⟩⟩

end FileSystem

namespace Writer

variable {writer : Writer} {writing : OutputOptions} {fs : FileSystem} {path folder : FilePath}
  {content : Text} {place : Location} {bytes : List UInt8}

/-! ## One file -/

/-- Where a file is, its writer is told so, or else is told nothing. -/
theorem isThere_ne_false (h : fs.Names path) (hfile : fs.file? (path.place fs.cwd) = some bytes) :
    writer.isThere fs path ≠ .ok false := by
  obtain ⟨node, hfind, -⟩ := bind_eq_ok_iff.1 (h.readFile_eq hfile)
  rw [isThere, hfind, attempt]
  cases writer.grants fs .look path <;> simp

/-- A writer that may not overwrite files does nothing where something is there. -/
theorem write_of_isThere (hrefuse : writing.mode = .refuse)
    (h : writer.isThere fs path ≠ .ok false) :
    (writer.write writing fs path content).2 = fs := by
  unfold write
  rw [hrefuse]
  dsimp only
  split
  · rfl
  · rfl
  · next hfalse => exact absurd hfalse h

/-- **One write** of a writer that may not overwrite files keeps every file, unless its path is a
detour to it. -/
theorem kept_of_write (content : Text) (hrefuse : writing.mode = .refuse)
    (hfree : writing.atomic.isTruthy = true → fs.file? (writer.temporaryPlace fs path) = none)
    (hfile : fs.file? place = some bytes) :
    (writer.write writing fs path content).2.file? place = some bytes ∨
      path.place fs.cwd = place ∧ fs.IsDetour path := by
  by_cases hthere : writer.isThere fs path = .ok false
  · have htouches : Touches fs path (writer.write writing fs path content).2 :=
      touches_of_write hfree
    rcases htouches.files with hsame | ⟨⟨made, hnames⟩, hothers⟩
    · exact .inl (by rw [hsame, hfile])
    by_cases hplace : place = path.place fs.cwd
    · subst hplace
      refine .inr ⟨rfl, ?_⟩
      by_contra hdirect
      exact isThere_ne_false (hnames.of_file? hdirect hfile) hfile hthere
    · exact .inl ((hothers place hplace).trans hfile)
  · exact .inl (by rw [write_of_isThere hrefuse hthere, hfile])

/-! ## Several files -/

theorem kept_of_writeFiles {files : List ModuleFile} (hrefuse : writing.mode = .refuse)
    (hfresh : writing.atomic.isTruthy = true → writer.HasFreshNames fs folder files)
    (hfile : fs.file? place = some bytes) :
    (writer.writeFiles writing folder fs files).2.2.file? place = some bytes ∨
      ∃ file ∈ files, placeOf fs folder file = place ∧ fs.IsDetour (folder.join file.name) := by
  induction files generalizing fs with
  | nil => exact .inl hfile
  | cons file rest ih =>
    rcases kept_of_write file.content hrefuse
      (fun hatomic => (hfresh hatomic).free file List.mem_cons_self) hfile with hkept | hdetour
    · have hextends : fs.Extends
          (writer.write writing fs (folder.join file.name) file.content).2 := extends_of_write
      rw [writeFiles_cons]
      split
      · next hwrite =>
        rw [hwrite] at hkept
        exact .inl hkept
      · next next hwrite =>
        rw [hwrite] at hkept hextends
        rcases ih (fun hatomic => (hfresh hatomic).of_write hatomic hwrite) hkept with
          hlast | ⟨later, hlater, hplace, hdetour⟩
        · exact .inl hlast
        · rw [placeOf, hextends.cwd] at hplace
          exact .inr ⟨later, List.mem_cons_of_mem _ hlater, hplace, hdetour.of_extends hextends⟩
    · exact .inr ⟨file, List.mem_cons_self, hdetour⟩

/-! ## Rows of calls -/

/-- A call of a writer: to write one file, or all files of an output. -/
inductive Call where
  | write (options : OutputOptions) (path : FilePath) (content : Text)
  | writeAll (options : OutputOptions) (output : Output) (folder : FilePath)

namespace Call

/-- The options under which a call is made. -/
def options : Call → OutputOptions
  | .write options _ _ => options
  | .writeAll options _ _ => options

/-- The paths of the files that a call is to write. -/
def paths : Call → List FilePath
  | .write _ path _ => [path]
  | .writeAll _ output folder => output.files.map fun file => folder.join file.name

/-- The file system after a call, whether it fails or not. -/
def perform (writer : Writer) (fs : FileSystem) : Call → FileSystem
  | .write options path content => (writer.write options fs path content).2
  | .writeAll options output folder => (writer.writeAll options fs output folder).2.2

/-- If files are written aside, it is under names that are new. -/
def IsFresh (writer : Writer) (fs : FileSystem) : Call → Prop
  | .write options path _ =>
    options.atomic.isTruthy = true → fs.file? (writer.temporaryPlace fs path) = none
  | .writeAll options output folder =>
    options.atomic.isTruthy = true → writer.HasFreshNames fs folder output.files

/-- **One call** keeps every file, unless a path that it writes is a detour to it. -/
theorem kept_of_perform {call : Call} (hrefuse : call.options.mode = .refuse)
    (hfresh : call.IsFresh writer fs) (hfile : fs.file? place = some bytes) :
    (call.perform writer fs).file? place = some bytes ∨
      ∃ path ∈ call.paths, path.place fs.cwd = place ∧ fs.IsDetour path := by
  cases call with
  | write options path content =>
    rcases kept_of_write content hrefuse hfresh hfile with hkept | hdetour
    · exact .inl hkept
    · exact .inr ⟨path, List.mem_singleton_self path, hdetour⟩
  | writeAll options output folder =>
    rw [perform, writeAll_later]
    rcases kept_of_writeFiles hrefuse (fun hatomic => (hfresh hatomic).withMaxMissing _) hfile with
      hkept | ⟨file, hmem, hdetour⟩
    · exact .inl hkept
    · exact .inr ⟨_, List.mem_map_of_mem hmem, hdetour⟩

end Call

/-- The file system after a row of calls. -/
def performAll (writer : Writer) (fs : FileSystem) (calls : List Call) : FileSystem :=
  calls.foldl (Call.perform writer) fs

/-- Each of the calls uses names that are new when it is made. -/
def FreshAlong (writer : Writer) : FileSystem → List Call → Prop
  | _, [] => True
  | fs, call :: rest => call.IsFresh writer fs ∧ FreshAlong writer (call.perform writer fs) rest

theorem performAll_append (writer : Writer) (fs : FileSystem) (before after : List Call) :
    writer.performAll fs (before ++ after) =
      writer.performAll (writer.performAll fs before) after :=
  List.foldl_append

theorem FreshAlong.of_append {before after : List Call}
    (h : writer.FreshAlong fs (before ++ after)) :
    writer.FreshAlong (writer.performAll fs before) after := by
  induction before generalizing fs with
  | nil => exact h
  | cons call rest ih => exact ih h.2

theorem kept_of_performAll {calls : List Call}
    (hrefuse : ∀ call ∈ calls, call.options.mode = .refuse) (hfresh : writer.FreshAlong fs calls)
    (hfile : fs.file? place = some bytes) :
    (writer.performAll fs calls).file? place = some bytes ∨
      ∃ earlier call rest, calls = earlier ++ call :: rest ∧ ∃ path ∈ call.paths,
        path.place (writer.performAll fs earlier).cwd = place ∧
        (writer.performAll fs earlier).IsDetour path := by
  induction calls generalizing fs with
  | nil => exact .inl hfile
  | cons call rest ih =>
    obtain ⟨hcall, hrest⟩ := List.forall_mem_cons.1 hrefuse
    rcases Call.kept_of_perform hcall hfresh.1 hfile with hkept | hdetour
    · rcases ih hrest hfresh.2 hkept with hlast | ⟨earlier, later, more, hsplit, hdetour⟩
      · exact .inl hlast
      · exact .inr ⟨call :: earlier, later, more, by rw [hsplit, List.cons_append], hdetour⟩
    · exact .inr ⟨[], call, rest, rfl, hdetour⟩

/-- **Only a detour changes a file that is there.** After any row of calls of a writer that may not
overwrite files, each file that was there before one of the calls is as it was, unless that call or
a later one wrote to its place by a path that was a detour when the call was made. -/
theorem kept_or_detour (writer : Writer) (fs : FileSystem) (before after : List Call)
    (hrefuse : ∀ call ∈ before ++ after, call.options.mode = .refuse)
    (hfresh : writer.FreshAlong fs (before ++ after)) (place : Location) (bytes : List UInt8)
    (hfile : (writer.performAll fs before).file? place = some bytes) :
    (writer.performAll fs (before ++ after)).file? place = some bytes ∨
      ∃ earlier call rest, after = earlier ++ call :: rest ∧ ∃ path ∈ call.paths,
        path.place (writer.performAll fs (before ++ earlier)).cwd = place ∧
        (writer.performAll fs (before ++ earlier)).IsDetour path := by
  simp only [performAll_append]
  exact kept_of_performAll (fun call hcall => hrefuse call (List.mem_append_right before hcall))
    hfresh.of_append hfile

/-- A writer. -/
def clerk : Writer := { token := "k3x9w_2q" }

/-- A working directory with a file in it. -/
def office : FileSystem :=
  ⟨["work"], .directory [("work", .directory [("notes.txt", .file [0x6f, 0x6c, 0x64])])]⟩

/-- The place of that file. -/
def notes : Location := ["work", "notes.txt"]

/-- Two files, of which the second is in the office already. -/
def drafts : Output := { tables := { files := [⟨"plans/plan.txt", "plan"⟩, ⟨"notes.txt", "new"⟩] } }

/-- Two calls: the first fails at its second file, the second goes up from a directory that the
first has made. -/
def errands : List Call :=
  [.writeAll { mode := .refuse } drafts (.ofText "."),
    .write { mode := .refuse, atomic := .bool false } (.ofText "plans/../notes.txt") "new"]

theorem kept_or_detour_errands :
    (∀ call ∈ errands, call.options.mode = .refuse) ∧ clerk.FreshAlong office errands ∧
      (clerk.performAll office []).file? notes = some [0x6f, 0x6c, 0x64] ∧
      ((clerk.performAll office errands).file? notes = some [0x6f, 0x6c, 0x64] ∨
        ∃ earlier call rest, errands = earlier ++ call :: rest ∧ ∃ path ∈ call.paths,
          path.place (clerk.performAll office earlier).cwd = notes ∧
          (clerk.performAll office earlier).IsDetour path) := by
  have hrefuse : ∀ call ∈ errands, call.options.mode = .refuse := by decide
  have hfresh : clerk.FreshAlong office errands :=
    ⟨fun _ => ⟨by decide +kernel, by decide +kernel⟩, ⟨nofun, trivial⟩⟩
  exact ⟨hrefuse, hfresh, by decide +kernel,
    kept_or_detour clerk office [] errands hrefuse hfresh _ _ (by decide +kernel)⟩

/-- A writer that may not overwrite files overwrites one, aside and in place: the path goes up from
a directory that is made only after the file was asked for. -/
theorem detour_overwrites :
    office.file? notes = some [0x6f, 0x6c, 0x64] ∧
      ∀ atomic ∈ [Json.bool true, .bool false],
        clerk.FreshAlong office
            [.write ⟨.refuse, atomic⟩ (.ofText "draft/../notes.txt") (Text.ofString "new")] ∧
          (clerk.performAll office
            [.write ⟨.refuse, atomic⟩ (.ofText "draft/../notes.txt") (Text.ofString "new")]).file?
              notes = some [0x6e, 0x65, 0x77] := by
  refine ⟨by decide +kernel, fun atomic hatomic => ⟨⟨fun _ => ?_, trivial⟩, ?_⟩⟩
  · decide +kernel
  · revert atomic
    decide +kernel

end Writer

end SchemaScribe
