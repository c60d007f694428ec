import SchemaScribe.Proofs.FileSystem.InPlace
import SchemaScribe.Proofs.FileSystem.Touching

/-!
# Files with several names

A `FileSystem` is a tree of directories and regular files, in which each file has one name. In a
`Volume` a file may have several names, or may be a device or a pipe, and then it matters how it is
written: what is written in place is written to the file, under all of its names, while what is
moved to one of its names is another file. `Volume.write` is `Writer.write` with this in mind. As
there, the system may deny any operation.

* `IsCoherent.write`, `IsCoherent.of_reaches`: whatever is written, the names of one file show the
  same bytes;
* `file?_write_of_single`: where the file has no other name, all is as in the tree;
* `write_aside_or_not`: a file that is written aside is written safely, and writing in place ends
  like it, but for its other names, for devices and for files that may not be opened;
* `aside_and_in_place_differ`: in these cases it ends otherwise.
-/

namespace SchemaScribe

open SchemaScribe.Path (Location)

namespace Node

/-! ## One content for several files -/

variable {chosen : Location → Bool} {bytes : List UInt8}

mutual

/-- The tree with the given bytes in all chosen files. -/
def rewrite (chosen : Location → Bool) (bytes : List UInt8) : Node → Node
  | .file old => .file (if chosen [] then bytes else old)
  | .directory entries => .directory (rewriteEntries chosen bytes entries)

/-- The entries of a directory with the given bytes in all chosen files. -/
def rewriteEntries (chosen : Location → Bool) (bytes : List UInt8) :
    List (Text × Node) → List (Text × Node)
  | [] => []
  | (name, node) :: rest =>
    (name, node.rewrite (fun place => chosen (name :: place)) bytes) ::
      rewriteEntries chosen bytes rest

end

theorem get?_rewriteEntries (entries : List (Text × Node)) (name : Text) :
    Entries.get? (rewriteEntries chosen bytes entries) name =
      (Entries.get? entries name).map (rewrite (fun place => chosen (name :: place)) bytes) := by
  induction entries with
  | nil => rfl
  | cons entry rest ih =>
    obtain ⟨first, node⟩ := entry
    by_cases hname : first = name
    · simp [rewriteEntries, Entries.get?, hname]
    · simp [rewriteEntries, Entries.get?, hname, ih]

theorem file?_rewrite (node : Node) (place : Location) :
    (node.rewrite chosen bytes).file? place =
      (node.file? place).map fun old => if chosen place then bytes else old := by
  induction place generalizing node chosen with
  | nil => cases node <;> rfl
  | cons name rest ih =>
    cases node with
    | file old => rfl
    | directory entries =>
      rw [rewrite, file?_cons, file?_cons, get?_rewriteEntries]
      cases Entries.get? entries name with
      | none => rfl
      | some child => exact ih child

end Node

/-- A file system whose files may have several names, and need not be regular. The names of one file
are the places with its number at which a file is. -/
structure Volume where
  /-- What is seen at the places: directories, and files of any kind. -/
  seen : FileSystem
  number : Location → Nat
  /-- Whether the file of a number is a device, a pipe or another one that is not regular. -/
  special : Nat → Bool
  /-- The number of the next file. -/
  next : Nat
  number_lt : ∀ place, number place < next
  special_lt : ∀ n, special n = true → n < next

namespace Volume

/-- The bytes of the regular file at a place. -/
def file? (v : Volume) (place : Location) : Option (List UInt8) :=
  if v.special (v.number place) then none else v.seen.file? place

/-- Whether a file that is not regular is at a place. -/
def isSpecial (v : Volume) (place : Location) : Bool :=
  (v.seen.file? place).isSome && v.special (v.number place)

/-- Whether two places are names of one regular file. -/
def sharesFile (v : Volume) (place other : Location) : Bool :=
  (v.file? place).isSome && (v.file? other).isSome && v.number place == v.number other

/-- The volume after a file of its own was put at a place. -/
def renew (v : Volume) (place : Location) (later : FileSystem) : Volume where
  seen := later
  number := Function.update v.number place v.next
  special := v.special
  next := v.next + 1
  number_lt other := by
    rw [Function.update_apply]
    split
    · exact Nat.lt_succ_self _
    · exact Nat.lt_succ_of_lt (v.number_lt other)
  special_lt n h := Nat.lt_succ_of_lt (v.special_lt n h)

/-- The volume after the file at a place was written to: if it is regular, what is there now is seen
under all of its names. -/
def share (v : Volume) (place : Location) (later : FileSystem) : Volume :=
  { v with
    seen := { later with
      root := later.root.rewrite (v.sharesFile place) ((later.file? place).getD []) } }

/-- Writes a file. What is moved to its place, or made there, is a file of its own; what is written
to a file that is there is seen under all names of the file. -/
def write (v : Volume) (writer : Writer) (options : OutputOptions) (path : FilePath)
    (content : Text) : Except WriteError Unit × Volume :=
  let place := path.place v.seen.cwd
  let outcome := writer.write options v.seen path content
  let after :=
    if options.atomic.isTruthy then
      if outcome.1.isOk then v.renew place outcome.2 else { v with seen := outcome.2 }
    else if (v.seen.file? place).isSome then v.share place outcome.2
    else v.renew place outcome.2
  (outcome.1, after)

variable {v : Volume} {writer : Writer} {options aside inPlace : OutputOptions} {path : FilePath}
  {content : Text} {place other : Location} {later : FileSystem}

/-! ## Names of one file -/

theorem file?_of_regular (h : v.special (v.number place) = false) :
    v.file? place = v.seen.file? place := by
  simp [file?, h]

theorem sharesFile_iff : v.sharesFile place other = true ↔
    v.number place = v.number other ∧ v.special (v.number place) = false ∧
      (v.seen.file? place).isSome = true ∧ (v.seen.file? other).isSome = true := by
  unfold sharesFile file?
  by_cases hnumber : v.number place = v.number other
  · cases hspecial : v.special (v.number other) <;> simp [hnumber, hspecial]
  · simp [hnumber]

/-- The names of one file show the same bytes. -/
def IsCoherent (v : Volume) : Prop :=
  ∀ place other, v.sharesFile place other = true → v.file? place = v.file? other

theorem special_next (v : Volume) : v.special v.next = false :=
  Bool.eq_false_iff.2 fun h => Nat.lt_irrefl _ (v.special_lt _ h)

/-- A new file is regular. -/
theorem file?_renew_self (v : Volume) (place : Location) (later : FileSystem) :
    (v.renew place later).file? place = later.file? place := by
  simp [file?, renew, special_next]

theorem file?_renew_of_ne (v : Volume) (hne : other ≠ place)
    (hfile : later.file? other = v.seen.file? other) :
    (v.renew place later).file? other = v.file? other := by
  simp [file?, renew, hne, hfile]

/-- A file of its own is put at a place, and no other file changes. -/
theorem file?_renew (v : Volume) (place : Location) {bytes : List UInt8}
    (hfiles : later.file? = Function.update v.seen.file? place (some bytes)) :
    (v.renew place later).file? = Function.update v.file? place (some bytes) := by
  funext other
  by_cases hplace : other = place
  · rw [hplace, file?_renew_self, hfiles, Function.update_self, Function.update_self]
  · rw [Function.update_of_ne hplace, file?_renew_of_ne v hplace]
    rw [hfiles, Function.update_of_ne hplace]

theorem seen_share (v : Volume) (place : Location) (later : FileSystem) (other : Location) :
    (v.share place later).seen.file? other = (later.file? other).map fun old =>
      if v.sharesFile place other then (later.file? place).getD [] else old :=
  Node.file?_rewrite later.root other

theorem file?_share (v : Volume) (place : Location) (later : FileSystem) (other : Location) :
    (v.share place later).file? other =
      if v.special (v.number other) then none
      else (later.file? other).map fun old =>
        if v.sharesFile place other then (later.file? place).getD [] else old := by
  rw [file?, seen_share]
  rfl

/-- A new file has one name, and those of other files stay. -/
theorem IsCoherent.renew (h : v.IsCoherent)
    (hothers : ∀ other, other ≠ place → later.file? other = v.seen.file? other) :
    (v.renew place later).IsCoherent := by
  intro a b hshares
  obtain ⟨hnumber, hregular, ha, hb⟩ := sharesFile_iff.1 hshares
  simp only [Volume.renew, Function.update_apply] at hnumber hregular
  by_cases hplace : a = place ∨ b = place
  · -- Nothing else has the new number.
    have hsame : a = b := by
      by_contra hne
      have hlt := v.number_lt
      grind
    rw [hsame]
  · obtain ⟨hane, hbne⟩ := not_or.1 hplace
    have hfileA := hothers a hane
    have hfileB := hothers b hbne
    rw [if_neg hane] at hnumber hregular
    rw [if_neg hbne] at hnumber
    rw [file?_renew_of_ne v hane hfileA, file?_renew_of_ne v hbne hfileB]
    exact h a b (sharesFile_iff.2 ⟨hnumber, hregular, hfileA ▸ ha, hfileB ▸ hb⟩)

/-- Writing to a file that is there makes no file of another place. -/
theorem isSome_of_later (hthere : (v.seen.file? place).isSome = true)
    (hothers : ∀ other, other ≠ place → later.file? other = v.seen.file? other)
    (hother : (later.file? other).isSome = true) : (v.seen.file? other).isSome = true := by
  by_cases hplace : other = place
  · rw [hplace, hthere]
  · rw [← hothers other hplace, hother]

/-- A regular file shows what was written if its number is that of the file that was written to. -/
theorem file?_share_of_regular (hthere : (v.seen.file? place).isSome = true)
    (hothers : ∀ other, other ≠ place → later.file? other = v.seen.file? other)
    (hregular : v.special (v.number other) = false) (hother : (later.file? other).isSome = true) :
    (v.share place later).file? other =
      if v.number place = v.number other then some ((later.file? place).getD [])
      else v.file? other := by
  obtain ⟨old, hold⟩ := Option.isSome_iff_exists.1 hother
  rw [file?_share, hregular, if_neg Bool.false_ne_true, hold, Option.map_some]
  by_cases hsame : v.number place = v.number other
  · have hwas := isSome_of_later hthere hothers hother
    rw [if_pos (sharesFile_iff.2 ⟨hsame, hsame ▸ hregular, hthere, hwas⟩), if_pos hsame]
  · have hplace : other ≠ place := fun heq => hsame (heq ▸ rfl)
    rw [if_neg fun hshare => hsame (sharesFile_iff.1 hshare).1, if_neg hsame,
      file?_of_regular hregular, ← hothers other hplace, hold]

/-- What is written to a file changes it under all of its names. -/
theorem IsCoherent.share (h : v.IsCoherent) (hthere : (v.seen.file? place).isSome = true)
    (hothers : ∀ other, other ≠ place → later.file? other = v.seen.file? other) :
    (v.share place later).IsCoherent := by
  intro a b hshares
  obtain ⟨hnumber, hregular, ha, hb⟩ := sharesFile_iff.1 hshares
  rw [seen_share, Option.isSome_map] at ha hb
  have hnumber : v.number a = v.number b := hnumber
  have hregular : v.special (v.number a) = false := hregular
  have hshared : v.sharesFile a b = true := sharesFile_iff.2
    ⟨hnumber, hregular, isSome_of_later hthere hothers ha, isSome_of_later hthere hothers hb⟩
  rw [file?_share_of_regular hthere hothers hregular ha,
    file?_share_of_regular hthere hothers (hnumber ▸ hregular) hb, hnumber, h a b hshared]

/-! ## Writes -/

theorem write_fst (v : Volume) (writer : Writer) (options : OutputOptions) (path : FilePath)
    (content : Text) :
    (v.write writer options path content).1 = (writer.write options v.seen path content).1 := rfl

theorem write_of_aside (haside : aside.atomic.isTruthy = true)
    (h : writer.write aside v.seen path content = (.ok (), later)) :
    v.write writer aside path content = (.ok (), v.renew (path.place v.seen.cwd) later) := by
  simp only [write, haside, h]
  rfl

theorem write_of_aside_failed (haside : aside.atomic.isTruthy = true) {e : WriteError}
    (h : writer.write aside v.seen path content = (.error e, later)) :
    v.write writer aside path content = (.error e, { v with seen := later }) := by
  simp only [write, haside, h]
  rfl

theorem write_of_inPlace (hplain : inPlace.atomic.isTruthy = false)
    (hthere : (v.seen.file? (path.place v.seen.cwd)).isSome = true) :
    (v.write writer inPlace path content).2 =
      v.share (path.place v.seen.cwd) (writer.write inPlace v.seen path content).2 := by
  simp [write, hplain, hthere]

theorem write_of_inPlace_new (hplain : inPlace.atomic.isTruthy = false)
    (hnone : (v.seen.file? (path.place v.seen.cwd)).isSome = false) :
    (v.write writer inPlace path content).2 =
      v.renew (path.place v.seen.cwd) (writer.write inPlace v.seen path content).2 := by
  simp [write, hplain, hnone]

/-- **A write keeps volumes coherent**, whatever becomes of it. Nothing may be at the place aside,
if one is used. -/
theorem IsCoherent.write (h : v.IsCoherent) (hfree : options.atomic.isTruthy = true →
    v.seen.file? (writer.temporaryPlace v.seen path) = none) :
    (v.write writer options path content).2.IsCoherent := by
  have hothers : ∀ other, other ≠ path.place v.seen.cwd →
      (writer.write options v.seen path content).2.file? other = v.seen.file? other := by
    intro other hne
    rcases (Writer.touches_of_write hfree).files with hsame | ⟨-, hothers⟩
    · exact congrFun hsame other
    · exact hothers other hne
  cases hatomic : options.atomic.isTruthy with
  | true =>
    have hwhole : Writer.Whole v.seen path content (writer.write options v.seen path content) :=
      Writer.whole_of_write hatomic (hfree hatomic)
    cases hwrite : writer.write options v.seen path content with
    | mk result later =>
      rw [hwrite] at hwhole hothers
      cases hwhole with
      | failed e _ files =>
        rw [write_of_aside_failed hatomic hwrite]
        -- All files are as they were, and so are their numbers.
        intro place other hshares
        simp only [sharesFile, Volume.file?, files] at hshares ⊢
        exact h place other hshares
      | done _ _ _ =>
        rw [write_of_aside hatomic hwrite]
        exact h.renew hothers
  | false =>
    cases hthere : (v.seen.file? (path.place v.seen.cwd)).isSome with
    | true =>
      rw [write_of_inPlace hatomic hthere]
      exact h.share hthere hothers
    | false =>
      rw [write_of_inPlace_new hatomic hthere]
      exact h.renew hothers

/-- A volume is reached from another by writes. -/
inductive Reaches (writer : Writer) : Volume → Volume → Prop
  | refl (v : Volume) : Reaches writer v v
  | write {v w : Volume} (h : Reaches writer v w) (options : OutputOptions) (path : FilePath)
      (content : Text) (hfree : options.atomic.isTruthy = true →
        w.seen.file? (writer.temporaryPlace w.seen path) = none) :
      Reaches writer v (w.write writer options path content).2

theorem IsCoherent.of_reaches {w : Volume} (hreaches : Reaches writer v w) (h : v.IsCoherent) :
    w.IsCoherent := by
  induction hreaches with
  | refl => exact h
  | write _ options path content hfree ih => exact ih.write hfree

/-- **Where the file of the path has no other name**, and all files are regular, they are as after
the same write in the tree. -/
theorem file?_write_of_single (hregular : ∀ n, v.special n = false)
    (hsingle : ∀ other, v.sharesFile (path.place v.seen.cwd) other = true →
      other = path.place v.seen.cwd) :
    (v.write writer options path content).2.file? =
      (writer.write options v.seen path content).2.file? := by
  have hrenew : ∀ later, (v.renew (path.place v.seen.cwd) later).file? = later.file? := by
    intro later
    funext other
    rw [file?, if_neg (by simp [Volume.renew, hregular])]
    rfl
  cases hatomic : options.atomic.isTruthy with
  | true =>
    cases hwrite : writer.write options v.seen path content with
    | mk result later =>
      cases result with
      | error e =>
        rw [write_of_aside_failed hatomic hwrite]
        funext other
        simp [file?, hregular]
      | ok done => rw [write_of_aside hatomic hwrite, hrenew]
  | false =>
    cases hthere : (v.seen.file? (path.place v.seen.cwd)).isSome with
    | true =>
      rw [write_of_inPlace hatomic hthere]
      funext other
      rw [file?_share, hregular, if_neg Bool.false_ne_true]
      by_cases hshares : v.sharesFile (path.place v.seen.cwd) other = true
      · rw [hsingle other hshares]
        cases (writer.write options v.seen path content).2.file? (path.place v.seen.cwd) with
        | none => rfl
        | some bytes => simp
      · simp [hshares]
    | false => rw [write_of_inPlace_new hatomic hthere, hrenew]

/-! ## Writing aside and in place -/

/-- What is written in place to a regular file is seen under all of its names. -/
theorem file?_write_inPlace {bytes : List UInt8} (hplain : inPlace.atomic.isTruthy = false)
    (hregular : v.isSpecial (path.place v.seen.cwd) = false)
    (hfiles : (writer.write inPlace v.seen path content).2.file? =
      Function.update v.seen.file? (path.place v.seen.cwd) (some bytes)) (other : Location) :
    (v.write writer inPlace path content).2.file? other =
      if v.sharesFile (path.place v.seen.cwd) other then some bytes
      else Function.update v.file? (path.place v.seen.cwd) (some bytes) other := by
  cases hthere : (v.seen.file? (path.place v.seen.cwd)).isSome with
  | true =>
    have hnot : v.special (v.number (path.place v.seen.cwd)) = false := by
      rwa [isSpecial, hthere, Bool.true_and] at hregular
    rw [write_of_inPlace hplain hthere, file?_share, hfiles, Function.update_self, Option.getD_some]
    by_cases hplace : other = path.place v.seen.cwd
    · simp [hplace, hnot]
    rw [Function.update_of_ne hplace, Function.update_of_ne hplace]
    by_cases hshares : v.sharesFile (path.place v.seen.cwd) other = true
    · obtain ⟨hnumber, -, -, hother⟩ := sharesFile_iff.1 hshares
      obtain ⟨old, hold⟩ := Option.isSome_iff_exists.1 hother
      rw [← hnumber, hnot, if_neg Bool.false_ne_true, hold, Option.map_some, if_pos hshares,
        if_pos hshares]
    · simp [hshares, file?]
  | false =>
    have hshares : ¬ v.sharesFile (path.place v.seen.cwd) other = true := fun hshares =>
      Bool.false_ne_true (hthere.symm.trans (sharesFile_iff.1 hshares).2.2.1)
    rw [write_of_inPlace_new hplain hthere, if_neg hshares, file?_renew v _ hfiles]

/-- What leaves the files of the tree as they were leaves those of the volume. -/
theorem IsCoherent.file?_write_eq (h : v.IsCoherent) (hplain : inPlace.atomic.isTruthy = false)
    (hfiles : (writer.write inPlace v.seen path content).2.file? = v.seen.file?) :
    (v.write writer inPlace path content).2.file? = v.file? := by
  funext other
  cases hthere : (v.seen.file? (path.place v.seen.cwd)).isSome with
  | true =>
    rw [write_of_inPlace hplain hthere, file?_share, hfiles]
    by_cases hshares : v.sharesFile (path.place v.seen.cwd) other = true
    · obtain ⟨hnumber, hregular, -, hother⟩ := sharesFile_iff.1 hshares
      have hsame := h _ _ hshares
      rw [file?_of_regular hregular, file?_of_regular (hnumber ▸ hregular)] at hsame
      obtain ⟨old, hold⟩ := Option.isSome_iff_exists.1 hother
      rw [file?_of_regular (hnumber ▸ hregular), ← hnumber, hregular, if_neg Bool.false_ne_true,
        hsame, hold, Option.map_some, if_pos hshares, Option.getD_some]
    · simp [hshares, file?]
  | false =>
    rw [write_of_inPlace_new hplain hthere]
    by_cases hplace : other = path.place v.seen.cwd
    · have hnone : v.seen.file? (path.place v.seen.cwd) = none := by simpa using hthere
      rw [hplace, file?_renew_self, hfiles, file?, hnone, ite_self]
    · exact file?_renew_of_ne v hplace (congrFun hfiles other)

/-- **Writing aside is safe, and agrees with writing in place but for names and rights.** If it
fails, all regular files are as they were. Else the content can be read by the path and no regular
file but that of the path has changed. Then writing in place fails with all regular files as they
were if the system does not let the process open the file once its directories are there. If it
does, and the file is regular or new, writing in place succeeds as well and ends with the same
regular files, except that the other names of the file show the content too. -/
theorem write_aside_or_not (content : Text) (hcoherent : v.IsCoherent)
    (hmode : inPlace.mode = aside.mode) (haside : aside.atomic.isTruthy = true)
    (hplain : inPlace.atomic.isTruthy = false)
    (hfree : v.seen.file? (writer.temporaryPlace v.seen path) = none) :
    (∀ e later, v.write writer aside path content = (.error e, later) →
      later.file? = v.file?) ∧
    ∀ later, v.write writer aside path content = (.ok (), later) →
      ∃ bytes made, Utf8.encode content = .ok bytes ∧
        writer.makeDirectories v.seen path.parent = (.ok (), made) ∧
        later.file? = Function.update v.file? (path.place v.seen.cwd) (some bytes) ∧
        later.seen.readFile path = .ok bytes ∧
        (writer.grants made .overwrite path = false →
          ∃ final, v.write writer inPlace path content =
              (.error (.system .denied path.toText), final) ∧ final.file? = v.file?) ∧
        (writer.grants made .overwrite path = true →
          v.isSpecial (path.place v.seen.cwd) = false →
          ∃ final, v.write writer inPlace path content = (.ok (), final) ∧
            ∀ place, final.file? place =
              if v.sharesFile (path.place v.seen.cwd) place then some bytes
              else later.file? place) := by
  have hwhole : Writer.Whole v.seen path content (writer.write aside v.seen path content) :=
    Writer.whole_of_write haside hfree
  cases hwrite : writer.write aside v.seen path content with
  | mk result tree =>
    rw [hwrite] at hwhole
    cases hwhole with
    | failed e cwd files =>
      rw [write_of_aside_failed haside hwrite]
      refine ⟨fun e' later h => ?_, fun later h => by cases h⟩
      obtain ⟨-, rfl⟩ := Prod.mk.inj h
      funext place
      simp [file?, files]
    | @done _ bytes encoded cwd files =>
      rw [write_of_aside haside hwrite]
      refine ⟨fun e' later h => (by cases h), fun later h => ?_⟩
      obtain ⟨-, rfl⟩ := Prod.mk.inj h
      have hfiles := file?_renew v _ files
      obtain ⟨bytes', made, hbytes', hmade, hdenied, hgranted⟩ :=
        Writer.write_inPlace_of_aside hmode haside hplain hwrite
      obtain rfl : bytes = bytes' := Except.ok.inj (encoded.symm.trans hbytes')
      have hread : tree.readFile path = .ok bytes := by
        refine (Writer.wrote_of_write hwrite).names.readFile_eq ?_
        rw [cwd, files, Function.update_self]
      refine ⟨bytes, made, encoded, hmade, hfiles, hread, fun hno => ?_, fun hyes hregular => ?_⟩
      · have hmadeFiles : made.file? = v.seen.file? :=
          funext (Writer.grows_of_makeDirectories hmade).files
        refine ⟨_, Prod.ext (by rw [write_fst, hdenied hno]) rfl,
          hcoherent.file?_write_eq hplain ?_⟩
        rw [hdenied hno]
        exact hmadeFiles
      · obtain ⟨final, hfinal, hfinalFiles⟩ := hgranted hyes
        refine ⟨_, Prod.ext (by rw [write_fst, hfinal]) rfl, fun place => ?_⟩
        rw [file?_write_inPlace hplain hregular (by rw [hfinal]; exact hfinalFiles), hfiles]

/-- A writer to which the system grants everything. -/
def secretary : Writer := { token := "p0_7zzkq" }

/-- A path to a memo, by way of a directory that is not there yet. -/
def memo : FilePath := .ofText "out/../memo.txt"

/-- The place of the memo. -/
def memoPlace : Location := ["work", "memo.txt"]

/-- The place of another name of the memo. -/
def copyPlace : Location := ["work", "copy.txt"]

/-- The place of a device. -/
def printerPlace : Location := ["work", "printer"]

/-- A writer that may not open the memo. -/
def visitor : Writer :=
  { token := "p0_7zzkq", grants := fun _ operation path => operation ≠ .overwrite ∨ path ≠ memo }

/-- The memo, under two names in the working directory, and a device. -/
def desk : Volume where
  seen := ⟨["work"], .directory [("work", .directory [("memo.txt", .file [0x6f, 0x6c, 0x64]),
    ("copy.txt", .file [0x6f, 0x6c, 0x64]), ("printer", .file [])])]⟩
  number place := if place = printerPlace then 1 else 0
  special n := n = 1
  next := 2
  number_lt place := by
    by_cases h : place = printerPlace <;> simp [h]
  special_lt n h := by
    obtain rfl : n = 1 := by simpa using h
    decide

/-- Options under which files are written in place. -/
def plainly : OutputOptions := { atomic := .bool false }

theorem isCoherent_desk : desk.IsCoherent := by
  -- All files but the device show the same bytes.
  have hall : ∀ place, desk.special (desk.number place) = false →
      (desk.seen.file? place).isSome = true →
      desk.seen.file? place = some [0x6f, 0x6c, 0x64] := by
    intro place hregular hfile
    have hplace : place ≠ printerPlace := by
      rintro rfl
      cases hregular
    rcases place with _ | ⟨first, _ | ⟨second, rest⟩⟩
    · cases hfile
    · simp only [FileSystem.file?, desk, Node.file?_cons, Entries.get?] at hfile
      split at hfile <;> simp [Node.file?, Node.get?] at hfile
    · simp only [FileSystem.file?, desk, Node.file?_cons, Entries.get?] at hfile ⊢
      grind [printerPlace, Node.file?_cons, Entries.get?, Node.file?_file]
  intro place other hshares
  obtain ⟨hnumber, hregular, hplace, hother⟩ := sharesFile_iff.1 hshares
  rw [file?_of_regular hregular, file?_of_regular (hnumber ▸ hregular), hall place hregular hplace,
    hall other (hnumber ▸ hregular) hother]

theorem exists_of_fst_eq {α β : Type} {outcome : α × β} {a : α} (h : outcome.1 = a) :
    ∃ b, outcome = (a, b) := by
  subst h
  exact ⟨outcome.2, rfl⟩

theorem write_aside_or_not_desk :
    desk.IsCoherent ∧ desk.seen.file? (secretary.temporaryPlace desk.seen memo) = none ∧
      (∃ e later, desk.write secretary {} memo [.surrogate 0] = (.error e, later) ∧
        later.file? = desk.file?) ∧
      (∃ later final, desk.write secretary {} memo "new\n" = (.ok (), later) ∧
        later.file? = Function.update desk.file? memoPlace (some [0x6e, 0x65, 0x77, 0x0a]) ∧
        later.seen.readFile memo = .ok [0x6e, 0x65, 0x77, 0x0a] ∧
        desk.write secretary plainly memo "new\n" = (.ok (), final) ∧
        ∀ place, final.file? place =
          if desk.sharesFile memoPlace place then some [0x6e, 0x65, 0x77, 0x0a]
          else later.file? place) ∧
      ∃ later final, desk.write visitor {} memo "new\n" = (.ok (), later) ∧
        desk.write visitor plainly memo "new\n" =
          (.error (.system .denied memo.toText), final) ∧ final.file? = desk.file? := by
  have hfree : desk.seen.file? (secretary.temporaryPlace desk.seen memo) = none := by
    decide +kernel
  have hfree' : desk.seen.file? (visitor.temporaryPlace desk.seen memo) = none := by
    decide +kernel
  have hregular : desk.isSpecial (memo.place desk.seen.cwd) = false := by decide +kernel
  have hplace : memo.place desk.seen.cwd = memoPlace := by decide +kernel
  have haside : ({} : OutputOptions).atomic.isTruthy = true := rfl
  have hmode : plainly.mode = ({} : OutputOptions).mode := rfl
  have hencoded : Utf8.encode "new\n" = .ok [0x6e, 0x65, 0x77, 0x0a] := by decide +kernel
  refine ⟨isCoherent_desk, hfree, ?_, ?_, ?_⟩
  · have hfailed : (desk.write secretary {} memo [.surrogate 0]).1 =
        .error (.encoding ⟨0xD800, 0, 1⟩) := by decide +kernel
    obtain ⟨later, hlater⟩ : ∃ later, desk.write secretary {} memo [.surrogate 0] =
        (.error (.encoding ⟨0xD800, 0, 1⟩), later) := exists_of_fst_eq hfailed
    exact ⟨_, later, hlater,
      (write_aside_or_not _ isCoherent_desk hmode haside rfl hfree).1 _ later hlater⟩
  · have hdone : (desk.write secretary {} memo "new\n").1 = .ok () := by decide +kernel
    obtain ⟨later, hlater⟩ : ∃ later, desk.write secretary {} memo "new\n" = (.ok (), later) :=
      exists_of_fst_eq hdone
    obtain ⟨bytes, made, hbytes, -, hfiles, hread, -, hgranted⟩ :=
      (write_aside_or_not _ isCoherent_desk hmode haside rfl hfree).2 later hlater
    obtain rfl := Except.ok.inj (hbytes.symm.trans hencoded)
    obtain ⟨final, hfinal, hsame⟩ := hgranted rfl hregular
    rw [hplace] at hfiles hsame
    exact ⟨later, final, hlater, hfiles, hread, hfinal, hsame⟩
  · have hdone : (desk.write visitor {} memo "new\n").1 = .ok () := by decide +kernel
    obtain ⟨later, hlater⟩ : ∃ later, desk.write visitor {} memo "new\n" = (.ok (), later) :=
      exists_of_fst_eq hdone
    obtain ⟨-, made, -, -, -, -, hdenied, -⟩ :=
      (write_aside_or_not _ isCoherent_desk hmode haside rfl hfree').2 later hlater
    obtain ⟨final, hfinal, hsame⟩ := hdenied (by simp [visitor])
    exact ⟨later, final, hlater, hfinal, hsame⟩

/-- **Where the two ways differ.** What is moved to the place of a file is not seen under the other
names of the file; a file that may not be opened can be replaced all the same, and so can a device;
and besides the file, a directory on the way to it is new. -/
theorem aside_and_in_place_differ :
    ((desk.write secretary {} memo "new\n").1 = .ok () ∧
      (desk.write secretary plainly memo "new\n").1 = .ok () ∧
      (desk.write secretary {} memo "new\n").2.file? copyPlace = some [0x6f, 0x6c, 0x64] ∧
      (desk.write secretary plainly memo "new\n").2.file? copyPlace =
        some [0x6e, 0x65, 0x77, 0x0a]) ∧
    ((desk.write visitor {} memo "new\n").1 = .ok () ∧
      (desk.write visitor plainly memo "new\n").1 =
        .error (.system .denied "out/../memo.txt")) ∧
    ((desk.write secretary {} (.ofText "printer") "new\n").1 = .ok () ∧
      (desk.write secretary {} (.ofText "printer") "new\n").2.file? printerPlace =
        some [0x6e, 0x65, 0x77, 0x0a] ∧
      (desk.write secretary plainly (.ofText "printer") "new\n").2.file? printerPlace = none) ∧
    desk.seen.root.hasDirectory ["work", "out"] = false ∧
      (desk.write secretary {} memo "new\n").2.seen.root.hasDirectory ["work", "out"] = true := by
  decide +kernel

/-- Writing in place is not as safe: a content that cannot be encoded leaves an empty file, under
all of its names. -/
example : (desk.write secretary plainly memo [.surrogate 0]).2.file? copyPlace = some [] := by
  decide +kernel

end Volume

end SchemaScribe
