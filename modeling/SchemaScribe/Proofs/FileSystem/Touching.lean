import SchemaScribe.Proofs.FileSystem.Atomic

/-!
# What a write may touch

However a write ends, no directory is gone after it, and no file but that of its path can have
changed (`touches_of_write`). So however the writing of several files ends, what is at none of their
places stays (`file?_writeFiles_of_away`).
-/

namespace SchemaScribe

open SchemaScribe.Path (Location)

namespace Writer

variable {writer : Writer} {options : OutputOptions} {fs next : FileSystem}
  {path folder : FilePath} {content : Text}

/-! ## One file -/

/-- However a write ended: no directory is gone, and either all files are as they were, or the path
names a file and that one alone may have changed. -/
structure Touches (fs : FileSystem) (path : FilePath) (later : FileSystem) : Prop extends
    fs.Extends later where
  files : later.file? = fs.file? ∨ (∃ made : FileSystem, made.Names path) ∧
    ∀ place, place ≠ path.place fs.cwd → later.file? place = fs.file? place

/-- A write in place may leave an empty file behind when it fails. -/
theorem touches_of_writeInPlace : Touches fs path (writer.writeInPlace fs path content).2 := by
  unfold writeInPlace
  split
  · exact ⟨.refl fs, .inl rfl⟩
  next place hplace =>
  obtain ⟨hnames, rfl, -, hnone⟩ := of_attempt hplace
  have hput : ∀ bytes, Touches fs path (fs.put (path.place fs.cwd) (.file bytes)) := fun bytes =>
    ⟨FileSystem.extends_put _ hnone, .inr ⟨⟨fs, hnames⟩, fun _ hne =>
      FileSystem.file?_put_of_ne bytes hnone hne⟩⟩
  split
  · exact hput []
  · exact hput _

theorem extends_of_writeAside : fs.Extends (writer.writeAside fs path content).2 := by
  unfold writeAside
  dsimp only
  split
  · exact .refl fs
  next place hplace =>
  obtain ⟨-, -, hbeside, hnone⟩ := of_attempt hplace
  have hclean : ∀ bytes, fs.Extends ((fs.put place (.file bytes)).erase place) := fun bytes =>
    (FileSystem.extends_put _ hnone).trans
      (FileSystem.extends_erase (FileSystem.hasDirectory_put_file bytes hbeside))
  split
  · exact hclean []
  next bytes hbytes =>
  split
  · exact hclean bytes
  · exact hclean bytes
  next target htarget =>
  obtain ⟨-, -, -, htaken⟩ := of_attempt htarget
  exact (hclean bytes).trans
    (FileSystem.extends_put _ (FileSystem.hasDirectory_erase_eq_false place htaken))

theorem extends_of_write : fs.Extends (writer.write options fs path content).2 := by
  unfold write
  dsimp only
  split
  · exact .refl fs
  · exact .refl fs
  split
  · next hmade => exact (grows_of_makeDirectories hmade).toExtends
  next made hmade =>
  have hgrows : fs.Grows made := grows_of_makeDirectories hmade
  split
  · exact hgrows.toExtends.trans extends_of_writeAside
  · exact hgrows.toExtends.trans touches_of_writeInPlace.toExtends

/-- **What a write may touch.** Nothing may be at the place aside, if one is used. -/
theorem touches_of_write (hfree : options.atomic.isTruthy = true →
    fs.file? (writer.temporaryPlace fs path) = none) :
    Touches fs path (writer.write options fs path content).2 := by
  refine ⟨extends_of_write, ?_⟩
  cases hatomic : options.atomic.isTruthy with
  | true =>
    have hwhole : Whole fs path content (writer.write options fs path content) :=
      whole_of_write hatomic (hfree hatomic)
    cases hresult : writer.write options fs path content with
    | mk result later =>
      rw [hresult] at hwhole
      cases hwhole with
      | failed e _ files => exact .inl files
      | done _ _ files =>
        refine .inr ⟨⟨later, (wrote_of_write hresult).names⟩, fun place hne => ?_⟩
        rw [files, Function.update_of_ne hne]
  | false =>
    unfold write
    dsimp only
    split
    · exact .inl rfl
    · exact .inl rfl
    split
    · next hmade => exact .inl (funext (grows_of_makeDirectories hmade).files)
    next made hmade =>
    have hgrows : fs.Grows made := grows_of_makeDirectories hmade
    have hmadeFiles : made.file? = fs.file? := funext hgrows.files
    rw [hatomic, if_neg Bool.false_ne_true, ← hmadeFiles, ← hgrows.cwd]
    exact touches_of_writeInPlace.files

/-! ## Several files -/

variable {file : ModuleFile} {files rest : List ModuleFile}

/-- Files are written up to the first that fails: it is the last one that is touched. -/
theorem writeFiles_cons (writer : Writer) (options : OutputOptions) (folder : FilePath)
    (fs : FileSystem) (file : ModuleFile) (rest : List ModuleFile) :
    (writer.writeFiles options folder fs (file :: rest)).2.2 =
      match writer.write options fs (folder.join file.name) file.content with
      | (.error _, later) => later
      | (.ok (), next) => (writer.writeFiles options folder next rest).2.2 := by
  rw [writeFiles]
  dsimp only
  cases writer.write options fs (folder.join file.name) file.content with
  | mk result later => cases result <;> rfl

/-- Names that are new stay new when the first of the files is written. -/
theorem HasFreshNames.of_write (h : writer.HasFreshNames fs folder (file :: rest))
    (hatomic : options.atomic.isTruthy = true)
    (hwrite : writer.write options fs (folder.join file.name) file.content = (.ok (), next)) :
    writer.HasFreshNames next folder rest := by
  have hwhole : Whole fs (folder.join file.name) file.content
      (writer.write options fs (folder.join file.name) file.content) :=
    whole_of_write hatomic (h.free file List.mem_cons_self)
  rw [hwrite] at hwhole
  cases hwhole with
  | done _ cwd files => exact h.tail cwd files

/-- However it ends, the writing of files changes nothing that is at none of their places. -/
theorem file?_writeFiles_of_away
    (hfresh : options.atomic.isTruthy = true → writer.HasFreshNames fs folder files)
    {place : Location} (haway : ∀ file ∈ files, placeOf fs folder file ≠ place) :
    (writer.writeFiles options folder fs files).2.2.file? place = fs.file? place := by
  induction files generalizing fs with
  | nil => rfl
  | cons file rest ih =>
    obtain ⟨hplace, hrest⟩ := List.forall_mem_cons.1 haway
    have htouches : Touches fs (folder.join file.name)
        (writer.write options fs (folder.join file.name) file.content).2 :=
      touches_of_write fun hatomic => (hfresh hatomic).free file List.mem_cons_self
    have hfirst : (writer.write options fs (folder.join file.name) file.content).2.file? place =
        fs.file? place := by
      rcases htouches.files with hsame | ⟨-, hothers⟩
      · rw [hsame]
      · exact hothers place hplace.symm
    rw [writeFiles_cons]
    split
    · next hwrite =>
      rw [hwrite] at hfirst
      exact hfirst
    · next next hwrite =>
      rw [hwrite] at hfirst htouches
      have hlater := fun hatomic => (hfresh hatomic).of_write hatomic hwrite
      refine (ih hlater fun other hother => ?_).trans hfirst
      rw [placeOf, htouches.cwd]
      exact hrest other hother

/-! ## Outputs -/

variable {output : Output}

/-- The writing of an output leaves what the writing of its files does. -/
theorem writeAll_later (writer : Writer) (options : OutputOptions) (fs : FileSystem)
    (output : Output) (folder : FilePath) :
    (writer.writeAll options fs output folder).2.2 =
      (Writer.writeFiles { writer with maxMissing := writer.maxMissing - 1 } options folder fs
        output.files).2.2 := by
  rw [writeAll]
  split <;> simp [*]

/-- Whether names are new does not depend on how many directories may be missing. -/
theorem HasFreshNames.withMaxMissing (h : writer.HasFreshNames fs folder files) (n : Nat) :
    HasFreshNames { writer with maxMissing := n } fs folder files :=
  ⟨h.free, h.apart⟩

/-- However it ends, the writing of an output changes nothing that is at none of the places of its
files. -/
theorem file?_writeAll_of_away
    (hfresh : options.atomic.isTruthy = true → writer.HasFreshNames fs folder output.files)
    {place : Location} (haway : ∀ file ∈ output.files, placeOf fs folder file ≠ place) :
    (writer.writeAll options fs output folder).2.2.file? place = fs.file? place := by
  rw [writeAll_later]
  exact file?_writeFiles_of_away (fun hatomic => (hfresh hatomic).withMaxMissing _) haway

end Writer

end SchemaScribe
