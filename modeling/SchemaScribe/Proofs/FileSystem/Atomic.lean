import Mathlib.Logic.Function.Basic
import SchemaScribe.Proofs.FileSystem.Writing

/-!
# Writing aside

A file that is written aside is written whole or not at all (`whole_of_write`): when the write
fails, at whatever step, all files are as they were, and else the file of the path is the only one
that is not. So the files of an output are written up to one of them, and nothing else happens to
any file (`exists_wroteFirst`).

Nothing may be at the place aside, as the system chooses a new name for each temporary file. The
place may be that of a file of the output all the same, so long as that file is written later.
-/

namespace SchemaScribe

open SchemaScribe.Path (Location)

namespace FileSystem

variable {fs : FileSystem} {place : Location}

/-- A file that is put where a directory can hold it is the only one that changes. -/
theorem file?_put_eq_update (bytes : List UInt8) (h : fs.root.hasDirectory place = false)
    (hparent : fs.root.hasDirectory place.dropLast = true) :
    (fs.put place (.file bytes)).file? = Function.update fs.file? place (some bytes) := by
  funext other
  by_cases hother : other = place
  · rw [hother, file?_put_self bytes (.inr hparent), Function.update_self]
  · rw [file?_put_of_ne bytes h hother, Function.update_of_ne hother]

/-- A file that is put where none is and then removed leaves all files as they were. -/
theorem file?_erase_put (bytes : List UInt8) (h : fs.root.hasDirectory place = false)
    (hparent : fs.root.hasDirectory place.dropLast = true) (hfree : fs.file? place = none) :
    ((fs.put place (.file bytes)).erase place).file? = fs.file? := by
  have hne : place ≠ [] := by
    rintro rfl
    exact Bool.eq_false_iff.1 h hparent
  funext other
  by_cases hother : other = place
  · rw [hother, file?_erase_self hne, hfree]
  · rw [file?_erase_of_ne (hasDirectory_put_file bytes hparent) hother,
      file?_put_of_ne bytes h hother]

end FileSystem

namespace Writer

variable {writer : Writer} {options : OutputOptions} {fs made next : FileSystem}
  {path folder : FilePath} {content : Text} {result : Effect Unit}

/-! ## One file -/

/-- A write that came out whole: either it failed and all files are as they were, or the file of the
path has the content and all other files are as they were. -/
inductive Whole (fs : FileSystem) (path : FilePath) (content : Text) : Effect Unit → Prop
  | failed (e : WriteError) {later : FileSystem} (cwd : later.cwd = fs.cwd)
      (files : later.file? = fs.file?) : Whole fs path content (.error e, later)
  | done {later : FileSystem} {bytes : List UInt8} (encoded : Utf8.encode content = .ok bytes)
      (cwd : later.cwd = fs.cwd)
      (files : later.file? = Function.update fs.file? (path.place fs.cwd) (some bytes)) :
      Whole fs path content (.ok (), later)

/-- Directories that were made before do not matter. -/
theorem Whole.of_grows (hgrows : fs.Grows made) (h : Whole made path content result) :
    Whole fs path content result := by
  have hfiles : made.file? = fs.file? := funext hgrows.files
  cases h with
  | failed e cwd files => exact .failed e (cwd.trans hgrows.cwd) (files.trans hfiles)
  | done encoded cwd files =>
    rw [hfiles, hgrows.cwd] at files
    exact .done encoded (cwd.trans hgrows.cwd) files

/-- However far it gets, a write aside comes out whole: the file at the place aside is removed
before the file of the path is touched. -/
theorem whole_of_writeAside (hfree : fs.file? (writer.temporaryPlace fs path) = none) :
    Whole fs path content (writer.writeAside fs path content) := by
  unfold writeAside
  dsimp only
  split
  · exact .failed _ rfl rfl
  next place hplace =>
  obtain ⟨-, rfl, hbeside, hnone⟩ := of_attempt hplace
  have hclean := fun bytes => FileSystem.file?_erase_put bytes hnone hbeside hfree
  split
  · exact .failed _ rfl (hclean [])
  next bytes hbytes =>
  split
  · exact .failed _ rfl (hclean bytes)
  · exact .failed _ rfl (hclean bytes)
  next target htarget =>
  obtain ⟨-, rfl, hparent, htaken⟩ := of_attempt htarget
  have hasideFile := FileSystem.hasDirectory_put_file bytes hbeside
  refine .done hbytes rfl ?_
  rw [FileSystem.file?_put_eq_update bytes (FileSystem.hasDirectory_erase_eq_false _ htaken)
    ((FileSystem.extends_erase hasideFile).directories _ hparent), hclean]
  rfl

/-- **A write is done whole or not at all**, if files are written aside under new names. -/
theorem whole_of_write (hatomic : options.atomic.isTruthy = true)
    (hfree : fs.file? (writer.temporaryPlace fs path) = none) :
    Whole fs path content (writer.write options fs path content) := by
  unfold write
  dsimp only
  split
  · exact .failed _ rfl rfl
  · exact .failed _ rfl rfl
  · split
    · next e made hmade =>
      have hgrows : fs.Grows made := grows_of_makeDirectories hmade
      exact .failed e hgrows.cwd (funext hgrows.files)
    · next made hmade =>
      have hgrows : fs.Grows made := grows_of_makeDirectories hmade
      rw [if_pos hatomic]
      refine .of_grows hgrows (whole_of_writeAside ?_)
      rw [temporaryPlace_eq hgrows.cwd, hgrows.files, hfree]

/-! ## Several files -/

/-- The files by their places, as a view has them, after the given files are written below a
folder, one after the other. -/
def filesAfter (fs : FileSystem) (folder : FilePath) (view : Location → Option (List UInt8))
    (files : List ModuleFile) : Location → Option (List UInt8) :=
  files.foldl (fun view file => Function.update view (placeOf fs folder file)
    (Utf8.encode file.content).toOption) view

theorem filesAfter_eq (h : next.cwd = fs.cwd) (folder : FilePath) :
    filesAfter next folder = filesAfter fs folder := by
  have hplace : placeOf next folder = placeOf fs folder := by
    funext file
    rw [placeOf, placeOf, h]
  unfold filesAfter
  rw [hplace]

/-- What is at the place of none of the files stays. -/
theorem filesAfter_of_ne {view : Location → Option (List UInt8)} {files : List ModuleFile}
    {place : Location} (h : ∀ file ∈ files, placeOf fs folder file ≠ place) :
    filesAfter fs folder view files place = view place := by
  induction files generalizing view with
  | nil => rfl
  | cons file rest ih =>
    obtain ⟨hfile, hrest⟩ := List.forall_mem_cons.1 h
    exact (ih hrest).trans (Function.update_of_ne hfile.symm _ _)

/-- The places aside at which the files are written have no file, and are no places of files that
are written before. -/
structure HasFreshNames (writer : Writer) (fs : FileSystem) (folder : FilePath)
    (files : List ModuleFile) : Prop where
  free : ∀ file ∈ files, fs.file? (writer.temporaryPlace fs (folder.join file.name)) = none
  apart : files.Pairwise fun earlier file =>
    placeOf fs folder earlier ≠ writer.temporaryPlace fs (folder.join file.name)

/-- The first `k` of the files are written below the folder, and no other file has changed. -/
structure WroteFirst (fs : FileSystem) (folder : FilePath) (files : List ModuleFile) (k : Nat)
    (later : FileSystem) : Prop where
  le : k ≤ files.length
  encoded : ∀ file ∈ files.take k, ∃ bytes, Utf8.encode file.content = .ok bytes
  files : later.file? = filesAfter fs folder fs.file? (files.take k)

variable {file : ModuleFile} {files rest : List ModuleFile}

/-- Names that are new stay new while files are written. -/
theorem HasFreshNames.tail (h : writer.HasFreshNames fs folder (file :: rest))
    (hcwd : next.cwd = fs.cwd) {bytes : List UInt8}
    (hfiles : next.file? = Function.update fs.file? (placeOf fs folder file) (some bytes)) :
    writer.HasFreshNames next folder rest where
  free other hother := by
    have hapart := (List.pairwise_cons.1 h.apart).1 other hother
    rw [temporaryPlace_eq hcwd, hfiles, Function.update_of_ne hapart.symm]
    exact h.free other (List.mem_cons_of_mem _ hother)
  apart := by
    refine (List.pairwise_cons.1 h.apart).2.imp fun {a b} hab => ?_
    rwa [temporaryPlace_eq hcwd, placeOf, hcwd]

/-- **One file more**: it is written first, and then the others are. -/
theorem WroteFirst.cons {k : Nat} {later : FileSystem} (h : WroteFirst next folder rest k later)
    (hcwd : next.cwd = fs.cwd) {bytes : List UInt8} (hbytes : Utf8.encode file.content = .ok bytes)
    (hfiles : next.file? = Function.update fs.file? (placeOf fs folder file) (some bytes)) :
    WroteFirst fs folder (file :: rest) (k + 1) later where
  le := Nat.succ_le_succ h.le
  encoded := by
    rw [List.take_succ_cons]
    exact List.forall_mem_cons.2 ⟨⟨bytes, hbytes⟩, h.encoded⟩
  files := by
    rw [h.files, hfiles, filesAfter_eq hcwd, List.take_succ_cons]
    simp only [filesAfter, List.foldl_cons, hbytes, Except.toOption]

/-- **Files are written up to one of them**: the first ones are written, all of them if none fails,
and no other file changes. -/
theorem exists_wroteFirst (hatomic : options.atomic.isTruthy = true)
    (hfresh : writer.HasFreshNames fs folder files) :
    ∃ k, WroteFirst fs folder files k (writer.writeFiles options folder fs files).2.2 ∧
      ((∃ paths, (writer.writeFiles options folder fs files).1 = .ok paths) ↔ k = files.length) := by
  induction files generalizing fs with
  | nil => exact ⟨0, ⟨Nat.le_refl 0, by simp, rfl⟩, by simp [writeFiles]⟩
  | cons file rest ih =>
    have hwhole : Whole fs (folder.join file.name) file.content
        (writer.write options fs (folder.join file.name) file.content) :=
      whole_of_write hatomic (hfresh.free file List.mem_cons_self)
    rw [writeFiles]
    dsimp only
    generalize writer.write options fs (folder.join file.name) file.content = result at hwhole ⊢
    cases hwhole with
    | failed e cwd files => exact ⟨0, ⟨Nat.zero_le _, by simp, files⟩, by simp⟩
    | @done next bytes encoded cwd files =>
      obtain ⟨k, hfirst, hiff⟩ := ih (hfresh.tail cwd files)
      refine ⟨k + 1, hfirst.cons cwd encoded files, ?_⟩
      rw [List.length_cons, Nat.add_right_cancel_iff, ← hiff]
      exact exists_map_eq_ok_iff

/-- Outputs are written up to one of their files. -/
theorem exists_wroteFirst_of_writeAll {output : Output} (hatomic : options.atomic.isTruthy = true)
    (hfresh : writer.HasFreshNames fs folder output.files) :
    ∃ k, WroteFirst fs folder output.files k (writer.writeAll options fs output folder).2.2 ∧
      ((∃ paths, (writer.writeAll options fs output folder).1 = .ok paths) ↔
        k = output.files.length) := by
  have hinner : HasFreshNames { writer with maxMissing := writer.maxMissing - 1 } fs folder
      output.files := ⟨hfresh.free, hfresh.apart⟩
  obtain ⟨k, hfirst, hiff⟩ := exists_wroteFirst hatomic hinner
  rw [writeAll]
  refine ⟨k, ?_, ?_⟩
  · split
    · next hfiles =>
      rw [hfiles] at hfirst
      exact hfirst
    · next hfiles =>
      rw [hfiles] at hfirst
      exact hfirst
  · rw [← hiff]
    split
    · next hfiles => simp [hfiles]
    · next hfiles => simp [hfiles]

end Writer

end SchemaScribe
