import SchemaScribe.Proofs.FileSystem.Atomic

/-!
# Writing aside and in place

Where a file can be moved from its place aside, it can be written in place just as well: the file
aside is no directory and stands where none is, so that with it and without it the same directories
are there (`FileSystem.extends_put_file`), and the same paths can be written (`writable_eq_ok_iff`).
All that writing in place needs besides is that the system lets the process open the file
(`write_inPlace_of_aside`).
-/

namespace SchemaScribe

open SchemaScribe.Path (Location)

namespace FileSystem

variable {fs : FileSystem} {path : FilePath} {place : Location}

/-- A file that is put where a directory can hold it makes no directory. -/
theorem extends_put_file (bytes : List UInt8)
    (hparent : fs.root.hasDirectory place.dropLast = true) :
    (fs.put place (.file bytes)).Extends fs where
  cwd := rfl
  directories other hother := by
    have hfile := hasDirectory_put_file bytes hparent
    have hnot := Node.not_isPrefix_of_hasDirectory hfile hother
    rwa [show (fs.put place (.file bytes)).root = fs.root.put place (.file bytes) from rfl,
      (Node.isLocal_put _).hasDirectory_eq hnot] at hother

/-- A path can be written when it names a file, at a place at which no directory is. -/
theorem writable_eq_ok_iff {dots : Fault} :
    fs.writable dots path = .ok place ↔
      fs.Names path ∧ place = path.place fs.cwd ∧ fs.root.hasDirectory place = false := by
  constructor
  · intro h
    obtain ⟨hnames, hplace, -, hnone⟩ := of_writable h
    exact ⟨hnames, hplace, hnone⟩
  · rintro ⟨⟨hask, dots', slot, node, hslot⟩, rfl, hnone⟩
    -- The fault for dots is no part of a slot that is there.
    have hslot' : fs.slot dots path = .ok (slot, node) :=
      slot_eq_ok_iff.2 (slot_eq_ok_iff.1 hslot)
    obtain rfl := place_of_slot hslot
    obtain ⟨-, -, hget⟩ := get?_of_slot hslot
    refine bind_eq_ok_iff.2 ⟨(), hask, bind_eq_ok_iff.2 ⟨_, mapError_eq_ok_iff.2 hslot', ?_⟩⟩
    cases node with
    | none => rfl
    | some found =>
      cases found with
      | file bytes => rfl
      | directory entries =>
        have hdirectory : fs.root.hasDirectory (path.place fs.cwd) = true :=
          Node.hasDirectory_eq_true_iff.2 ⟨_, hget, rfl⟩
        cases hnone.symm.trans hdirectory

/-- File systems with the same directories have the same paths that can be written. -/
theorem writable_of_extends {later : FileSystem} {dots dots' : Fault}
    (h : later.writable dots path = .ok place) (hforth : fs.Extends later)
    (hback : later.Extends fs) : fs.writable dots' path = .ok place := by
  obtain ⟨hnames, rfl, hnone⟩ := writable_eq_ok_iff.1 h
  exact writable_eq_ok_iff.2
    ⟨hnames.of_extends hback, by rw [hforth.cwd], hforth.hasDirectory_eq_false hnone⟩

end FileSystem

namespace Writer

variable {writer : Writer} {aside inPlace : OutputOptions} {fs later : FileSystem}
  {path : FilePath} {content : Text}

/-- What can be written aside can be written in place. -/
theorem writable_of_writeAside (h : writer.writeAside fs path content = (.ok (), later)) :
    (∃ bytes, Utf8.encode content = .ok bytes) ∧
      fs.writable .isDirectory path = .ok (path.place fs.cwd) := by
  unfold writeAside at h
  simp only at h
  split at h
  · cases h
  next place hplace =>
  obtain ⟨-, -, hbeside, hnone⟩ := of_attempt hplace
  split at h
  · cases h
  next bytes hbytes =>
  split at h
  · cases h
  · cases h
  next target htarget =>
  have hwritable : fs.writable .isDirectory path = .ok target :=
    FileSystem.writable_of_extends (attempt_eq_ok_iff.1 htarget).2
      (FileSystem.extends_put _ hnone) (FileSystem.extends_put_file bytes hbeside)
  obtain ⟨-, rfl, -, -⟩ := FileSystem.of_writable hwritable
  exact ⟨⟨bytes, hbytes⟩, hwritable⟩

theorem writeInPlace_of_denied (h : writer.grants fs .overwrite path = false) :
    writer.writeInPlace fs path content = (.error (.system .denied path.toText), fs) := by
  rw [writeInPlace, attempt, h]
  rfl

theorem writeInPlace_of_writable {place : Location} {bytes : List UInt8}
    (hgranted : writer.grants fs .overwrite path = true)
    (hplace : fs.writable .isDirectory path = .ok place)
    (hbytes : Utf8.encode content = .ok bytes) :
    writer.writeInPlace fs path content = (.ok (), fs.put place (.file bytes)) := by
  rw [writeInPlace, attempt_eq_ok_iff.2 ⟨hgranted, hplace⟩]
  dsimp only
  rw [hbytes]

/-- **A file that is written aside can be written in place**, if the system lets the process open
it once its directories are there; and else writing in place goes no further than that. -/
theorem write_inPlace_of_aside (hmode : inPlace.mode = aside.mode)
    (haside : aside.atomic.isTruthy = true) (hplain : inPlace.atomic.isTruthy = false)
    (h : writer.write aside fs path content = (.ok (), later)) :
    ∃ bytes made, Utf8.encode content = .ok bytes ∧
      writer.makeDirectories fs path.parent = (.ok (), made) ∧
      (writer.grants made .overwrite path = false →
        writer.write inPlace fs path content = (.error (.system .denied path.toText), made)) ∧
      (writer.grants made .overwrite path = true →
        ∃ final, writer.write inPlace fs path content = (.ok (), final) ∧
          final.file? = Function.update fs.file? (path.place fs.cwd) (some bytes)) := by
  obtain ⟨hfree, made, hmade, h⟩ := write_eq_ok_iff.1 h
  rw [if_pos haside] at h
  obtain ⟨⟨bytes, hbytes⟩, hplace⟩ := writable_of_writeAside h
  have hgrows : fs.Grows made := grows_of_makeDirectories hmade
  have hwrite : writer.write inPlace fs path content = writer.writeInPlace made path content := by
    rw [write_eq (fun hrefuse => hfree (hmode ▸ hrefuse)) hmade, hplain, if_neg Bool.false_ne_true]
  refine ⟨bytes, made, hbytes, hmade, fun hdenied => ?_, fun hgranted => ?_⟩
  · rw [hwrite, writeInPlace_of_denied hdenied]
  · rw [hwrite, writeInPlace_of_writable hgranted hplace hbytes]
    obtain ⟨-, -, hparent, hnone⟩ := FileSystem.of_writable hplace
    refine ⟨_, rfl, ?_⟩
    rw [FileSystem.file?_put_eq_update bytes hnone hparent, hgrows.cwd]
    exact congrArg (Function.update · _ _) (funext hgrows.files)

end Writer

end SchemaScribe
