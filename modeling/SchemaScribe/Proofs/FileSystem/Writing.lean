import SchemaScribe.FileSystem.Writer
import SchemaScribe.Proofs.FileSystem.Directories

/-!
# What a writer leaves

A writer that succeeds puts a file at the place of its path and changes no other, but for the place
at which it writes aside (`wrote_of_write`). What is written first can therefore be read after all
files of an output are written, unless a later one of them has the same place
(`readFile_of_writeFiles`). Two paths may be spelled differently and have one place all the same.
-/

namespace SchemaScribe

open SchemaScribe.Path (Location)

namespace FileSystem

variable {fs next later : FileSystem} {path : FilePath}

/-- The later file system has further directories and the same files. -/
structure Grows (fs later : FileSystem) : Prop extends Extends fs later where
  files : ∀ place, later.file? place = fs.file? place

theorem Grows.refl (fs : FileSystem) : fs.Grows fs := ⟨.refl fs, fun _ => rfl⟩

theorem Grows.trans (h : fs.Grows next) (h' : next.Grows later) : fs.Grows later :=
  ⟨h.toExtends.trans h'.toExtends, fun place => (h'.files place).trans (h.files place)⟩

theorem grows_of_makeDirectory (h : fs.makeDirectory path = .ok later) : fs.Grows later := by
  obtain ⟨place, hget, rfl⟩ := of_makeDirectory h
  have hnone : fs.root.hasDirectory place = false :=
    Node.hasDirectory_eq_false fun entries hdirectory => by cases hget.symm.trans hdirectory
  exact ⟨extends_put _ hnone, fun other => file?_put_directory other hget⟩

/-- A file that is put where a directory can hold it is no directory. -/
theorem hasDirectory_put_file {place : Location} (bytes : List UInt8)
    (hparent : fs.root.hasDirectory place.dropLast = true) :
    (fs.put place (.file bytes)).root.hasDirectory place = false := by
  have hfile : (fs.put place (.file bytes)).file? place = some bytes :=
    file?_put_self bytes (.inr hparent)
  exact Node.hasDirectory_eq_false fun entries hdirectory => by
    cases (Node.file?_eq_some_iff.1 hfile).symm.trans hdirectory

/-- Where no directory stands, none stands after a removal. -/
theorem hasDirectory_erase_eq_false (place : Location) {other : Location}
    (h : fs.root.hasDirectory other = false) :
    (fs.erase place).root.hasDirectory other = false := by
  by_contra hdirectory
  rw [Bool.not_eq_false] at hdirectory
  exact Bool.eq_false_iff.1 h (Node.hasDirectory_of_erase hdirectory)

end FileSystem

namespace Writer

variable {writer : Writer} {options : OutputOptions} {fs next later : FileSystem}
  {path folder : FilePath} {content : Text}

/-! ## One file -/

/-- What succeeds is granted. -/
theorem attempt_eq_ok_iff {α : Type} {operation : Operation} {outcome : Except AccessError α}
    {a : α} : writer.attempt fs operation path outcome = .ok a ↔
      writer.grants fs operation path = true ∧ outcome = .ok a := by
  unfold attempt
  cases writer.grants fs operation path <;> simp

/-- What the system lets a process write is a file, or nothing yet, in a directory. -/
theorem of_attempt {operation : Operation} {dots : Fault} {place : Location}
    (h : writer.attempt fs operation path (fs.writable dots path) = .ok place) :
    fs.Names path ∧ place = path.place fs.cwd ∧ fs.root.hasDirectory place.dropLast = true ∧
      fs.root.hasDirectory place = false :=
  FileSystem.of_writable (attempt_eq_ok_iff.1 h).2

theorem accept_snd (writer : Writer) (fs : FileSystem) (path : FilePath) (e : AccessError) :
    (writer.accept fs path e).2 = fs := by
  unfold accept
  split <;> rfl

/-- Whatever becomes of it, making directories changes no file. -/
theorem grows_of_makeAll (writer : Writer) (anchor : Anchor) (missing : Nat) (names : List Text)
    (fs : FileSystem) : fs.Grows (writer.makeAll anchor missing names fs).2 := by
  induction names generalizing missing fs with
  | nil => cases missing <;> exact .refl fs
  | cons name above ih =>
    cases missing with
    | zero => exact .refl fs
    | succ missing =>
      rw [makeAll]
      split
      · next hmade => exact FileSystem.grows_of_makeDirectory (attempt_eq_ok_iff.1 hmade).2
      · have habove := ih missing fs
        split
        · next hfailed =>
          rw [hfailed] at habove
          exact habove
        · next hdone =>
          rw [hdone] at habove
          split
          · next hmade =>
            exact habove.trans (FileSystem.grows_of_makeDirectory (attempt_eq_ok_iff.1 hmade).2)
          · rw [accept_snd]
            exact habove
      · rw [accept_snd]
        exact .refl fs

theorem grows_of_makeDirectories {result : Except WriteError Unit}
    (h : writer.makeDirectories fs path = (result, later)) : fs.Grows later := by
  have hall := grows_of_makeAll writer path.anchor writer.maxMissing path.parts.reverse fs
  rw [makeDirectories] at h
  rwa [h] at hall

/-- The place at which a file is written aside. -/
def temporaryPlace (writer : Writer) (fs : FileSystem) (path : FilePath) : Location :=
  (temporaryPath fs path writer.token).place fs.cwd

/-- A file is written: the later file system has all directories of the earlier one, the content is
at the place of the path, and all other files are the same, but for that at the place aside if one
is used. -/
structure Wrote (writer : Writer) (options : OutputOptions) (fs : FileSystem) (path : FilePath)
    (content : Text) (later : FileSystem) : Prop extends fs.Extends later where
  names : later.Names path
  exists_bytes : ∃ bytes, Utf8.encode content = .ok bytes ∧
    later.file? (path.place fs.cwd) = some bytes
  others : ∀ place, path.place fs.cwd ≠ place →
    (options.atomic.isTruthy = true → writer.temporaryPlace fs path ≠ place) →
    later.file? place = fs.file? place

theorem wrote_of_writeInPlace (h : writer.writeInPlace fs path content = (.ok (), later)) :
    Wrote writer options fs path content later := by
  unfold writeInPlace at h
  split at h
  · cases h
  · next place hplace =>
    split at h
    · cases h
    · next bytes hbytes =>
      obtain rfl : fs.put place (.file bytes) = later := (Prod.mk.inj h).2
      obtain ⟨hnames, rfl, hparent, hnone⟩ := of_attempt hplace
      have hextends := FileSystem.extends_put (.file bytes) hnone
      exact ⟨hextends, hnames.of_extends hextends,
        ⟨bytes, hbytes, FileSystem.file?_put_self bytes (.inr hparent)⟩,
        fun other hne _ => FileSystem.file?_put_of_ne bytes hnone hne.symm⟩

theorem wrote_of_writeAside (h : writer.writeAside fs path content = (.ok (), later))
    (hatomic : options.atomic.isTruthy = true) : Wrote writer options fs path content later := by
  unfold writeAside at h
  simp only at h
  split at h
  · cases h
  next place hplace =>
  obtain ⟨-, htemporary, hbeside, hnone⟩ := of_attempt hplace
  split at h
  · cases h
  next bytes hbytes =>
  split at h
  · cases h
  · cases h
  next target htarget =>
  obtain ⟨hnames, rfl, hparent, hfree⟩ := of_attempt htarget
  obtain rfl := (Prod.mk.inj h).2
  have hasideFile := FileSystem.hasDirectory_put_file bytes hbeside
  have hput := FileSystem.extends_put (.file bytes) hnone
  have herase := FileSystem.extends_erase hasideFile
  have hstillFree := FileSystem.hasDirectory_erase_eq_false place hfree
  have hmove := FileSystem.extends_put (.file bytes) hstillFree
  refine ⟨(hput.trans herase).trans hmove, hnames.of_extends (herase.trans hmove),
    ⟨bytes, hbytes, FileSystem.file?_put_self bytes (.inr (herase.directories _ hparent))⟩, ?_⟩
  intro other hne haway
  have hother : other ≠ place := by
    rw [htemporary]
    exact (haway hatomic).symm
  calc
    (((fs.put place (.file bytes)).erase place).put (path.place fs.cwd) (.file bytes)).file? other
    _ = ((fs.put place (.file bytes)).erase place).file? other :=
        FileSystem.file?_put_of_ne bytes hstillFree hne.symm
    _ = (fs.put place (.file bytes)).file? other := FileSystem.file?_erase_of_ne hasideFile hother
    _ = fs.file? other := FileSystem.file?_put_of_ne bytes hnone hother

theorem temporaryPlace_eq (h : next.cwd = fs.cwd) (path : FilePath) :
    writer.temporaryPlace next path = writer.temporaryPlace fs path := by
  simp only [temporaryPlace, temporaryPath, h]

/-- Once nothing is in the way and all directories are there, it is up to the way in which files are
written. -/
theorem write_eq (hfree : options.mode = .refuse → writer.isThere fs path = .ok false)
    {made : FileSystem} (hmade : writer.makeDirectories fs path.parent = (.ok (), made))
    (content : Text) : writer.write options fs path content =
      if options.atomic.isTruthy then writer.writeAside made path content
      else writer.writeInPlace made path content := by
  unfold write
  cases hmode : options.mode with
  | overwrite =>
    dsimp only
    rw [hmade]
  | refuse =>
    dsimp only
    rw [hfree hmode, hmade]

/-- A file is written once nothing is in the way and all directories are there. -/
theorem write_eq_ok_iff :
    writer.write options fs path content = (.ok (), later) ↔
      (options.mode = .refuse → writer.isThere fs path = .ok false) ∧
      ∃ made, writer.makeDirectories fs path.parent = (.ok (), made) ∧
        (if options.atomic.isTruthy then writer.writeAside made path content
          else writer.writeInPlace made path content) = (.ok (), later) := by
  constructor
  · intro h
    unfold write at h
    dsimp only at h
    split at h
    · cases h
    · cases h
    next hfree =>
    split at h
    · cases h
    next made hmade =>
    refine ⟨fun hmode => ?_, made, hmade, h⟩
    rw [hmode] at hfree
    exact hfree
  · rintro ⟨hfree, made, hmade, h⟩
    rw [write_eq hfree hmade, h]

/-- **What a write leaves.** -/
theorem wrote_of_write (h : writer.write options fs path content = (.ok (), later)) :
    Wrote writer options fs path content later := by
  obtain ⟨-, made, hmade, h⟩ := write_eq_ok_iff.1 h
  have hgrows : fs.Grows made := grows_of_makeDirectories hmade
  have hwrote : Wrote writer options made path content later := by
    split at h
    · next hatomic => exact wrote_of_writeAside h hatomic
    · exact wrote_of_writeInPlace h
  obtain ⟨hextends, hnames, hbytes, hothers⟩ := hwrote
  rw [hgrows.cwd] at hbytes hothers
  rw [temporaryPlace_eq hgrows.cwd] at hothers
  exact ⟨hgrows.toExtends.trans hextends, hnames, hbytes, fun place hne haway =>
    (hothers place hne haway).trans (hgrows.files place)⟩

/-! ## Several files -/

/-- The place of a file of an output that is written below a folder. -/
def placeOf (fs : FileSystem) (folder : FilePath) (file : ModuleFile) : Location :=
  (folder.join file.name).place fs.cwd

/-- If files are written aside, it is under names that no file of the output has, as the system
chooses names that are new. -/
def IsFresh (writer : Writer) (options : OutputOptions) (fs : FileSystem) (folder : FilePath)
    (files : List ModuleFile) : Prop :=
  options.atomic.isTruthy = true → ∀ file ∈ files, ∀ other ∈ files,
    writer.temporaryPlace fs (folder.join file.name) ≠ placeOf fs folder other

variable {file : ModuleFile} {files rest : List ModuleFile} {paths : List FilePath}
  {told : List Notice}

/-- Files are written one after the other. -/
theorem writeFiles_cons_eq_ok
    (h : writer.writeFiles options folder fs (file :: rest) = (.ok paths, told, later)) :
    ∃ next more notices,
      Wrote writer options fs (folder.join file.name) file.content next ∧
      writer.writeFiles options folder next rest = (.ok more, notices, later) := by
  rw [writeFiles] at h
  simp only at h
  split at h
  · cases h
  · next next hwrite =>
    cases hrest : writer.writeFiles options folder next rest with
    | mk result tail =>
      obtain ⟨notices, last⟩ := tail
      rw [hrest] at h
      simp only [Prod.mk.injEq] at h
      obtain ⟨hresult, -, rfl⟩ := h
      cases result with
      | error e => cases hresult
      | ok more => exact ⟨next, more, notices, wrote_of_write hwrite, hrest⟩

theorem extends_of_writeFiles
    (h : writer.writeFiles options folder fs files = (.ok paths, told, later)) :
    fs.Extends later := by
  induction files generalizing fs paths told with
  | nil =>
    obtain rfl := (Prod.mk.inj (Prod.mk.inj h).2).2
    exact .refl fs
  | cons file rest ih =>
    obtain ⟨next, more, notices, hwrote, hrest⟩ := writeFiles_cons_eq_ok h
    exact hwrote.toExtends.trans (ih hrest)

/-- The paths of all files that are written name them at the end. -/
theorem names_of_writeFiles
    (h : writer.writeFiles options folder fs files = (.ok paths, told, later))
    (hfile : file ∈ files) : later.Names (folder.join file.name) := by
  induction files generalizing fs paths told with
  | nil => cases hfile
  | cons first rest ih =>
    obtain ⟨next, more, notices, hwrote, hrest⟩ := writeFiles_cons_eq_ok h
    rcases List.mem_cons.1 hfile with rfl | hfile
    · exact hwrote.names.of_extends (extends_of_writeFiles hrest)
    · exact ih hrest hfile

/-- What is at none of the places that are written to stays. -/
theorem file?_of_writeFiles
    (h : writer.writeFiles options folder fs files = (.ok paths, told, later)) {place : Location}
    (hplaces : ∀ file ∈ files, placeOf fs folder file ≠ place)
    (haway : options.atomic.isTruthy = true → ∀ file ∈ files,
      writer.temporaryPlace fs (folder.join file.name) ≠ place) :
    later.file? place = fs.file? place := by
  induction files generalizing fs paths told with
  | nil =>
    obtain rfl := (Prod.mk.inj (Prod.mk.inj h).2).2
    rfl
  | cons file rest ih =>
    obtain ⟨next, more, notices, hwrote, hrest⟩ := writeFiles_cons_eq_ok h
    have hfirst : next.file? place = fs.file? place :=
      hwrote.others place (hplaces file List.mem_cons_self) fun hatomic =>
        haway hatomic file List.mem_cons_self
    refine (ih hrest (fun other hother => ?_) fun hatomic other hother => ?_).trans hfirst
    · rw [placeOf, hwrote.cwd]
      exact hplaces other (List.mem_cons_of_mem _ hother)
    · rw [temporaryPlace_eq hwrote.cwd]
      exact haway hatomic other (List.mem_cons_of_mem _ hother)

theorem IsFresh.tail (h : writer.IsFresh options fs folder (file :: rest))
    (hcwd : next.cwd = fs.cwd) : writer.IsFresh options next folder rest := by
  intro hatomic a ha b hb
  rw [temporaryPlace_eq hcwd, placeOf, hcwd]
  exact h hatomic a (List.mem_cons_of_mem _ ha) b (List.mem_cons_of_mem _ hb)

/-- Of the files with one place, the last that is written is there at the end. -/
theorem file?_of_last {before after : List ModuleFile}
    (h : writer.writeFiles options folder fs (before ++ file :: after) = (.ok paths, told, later))
    (hfresh : writer.IsFresh options fs folder (before ++ file :: after))
    (hlast : ∀ other ∈ after, placeOf fs folder other ≠ placeOf fs folder file) :
    ∃ bytes, Utf8.encode file.content = .ok bytes ∧
      later.file? (placeOf fs folder file) = some bytes := by
  induction before generalizing fs paths told with
  | nil =>
    obtain ⟨next, more, notices, hwrote, hrest⟩ := writeFiles_cons_eq_ok h
    obtain ⟨bytes, hbytes, hfile⟩ := hwrote.exists_bytes
    refine ⟨bytes, hbytes, (file?_of_writeFiles hrest (fun other hother => ?_)
      fun hatomic other hother => ?_).trans hfile⟩
    · rw [placeOf, hwrote.cwd]
      exact hlast other hother
    · rw [temporaryPlace_eq hwrote.cwd]
      exact hfresh hatomic other (by simp [hother]) file (by simp)
  | cons first rest ih =>
    obtain ⟨next, more, notices, hwrote, hrest⟩ := writeFiles_cons_eq_ok h
    have hplace : ∀ other, placeOf next folder other = placeOf fs folder other := fun other => by
      rw [placeOf, hwrote.cwd, placeOf]
    have hlater := ih hrest (hfresh.tail hwrote.cwd) fun other hother => by
      rw [hplace, hplace]
      exact hlast other hother
    rwa [hplace] at hlater

/-- **What can be read in the end**: by the path of each file, the content of the last file with its
place. -/
theorem readFile_of_writeFiles {before after : List ModuleFile}
    (h : writer.writeFiles options folder fs (before ++ file :: after) = (.ok paths, told, later))
    (hfresh : writer.IsFresh options fs folder (before ++ file :: after))
    (hlast : ∀ other ∈ after, placeOf fs folder other ≠ placeOf fs folder file)
    {other : ModuleFile} (hother : other ∈ before ++ file :: after)
    (hplace : placeOf fs folder other = placeOf fs folder file) :
    ∃ bytes, Utf8.encode file.content = .ok bytes ∧
      later.readFile (folder.join other.name) = .ok bytes := by
  obtain ⟨bytes, hbytes, hfile⟩ := file?_of_last h hfresh hlast
  refine ⟨bytes, hbytes, (names_of_writeFiles h hother).readFile_eq ?_⟩
  rw [(extends_of_writeFiles h).cwd, show (folder.join other.name).place fs.cwd =
    placeOf fs folder file from hplace]
  exact hfile

end Writer

end SchemaScribe
