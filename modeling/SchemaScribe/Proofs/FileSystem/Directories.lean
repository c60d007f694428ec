import Mathlib.Data.List.Basic
import SchemaScribe.FileSystem.Basic
import SchemaScribe.Proofs.Success

/-!
# Directories that stay

Nothing that a writer does takes a directory away (`Extends`). A path whose file is in a directory
therefore keeps naming the same place (`Names.of_extends`), and what stands there can be read by the
path (`Names.readFile_eq`).

The place of a path is told without the file system (`FilePath.place`): there are no links, so that
`..` leads to the directory above. All that a walk adds is that the directories on the way are
there.
-/

namespace SchemaScribe

open SchemaScribe.Path (Location)

namespace Node

/-! ## Directories of a tree -/

theorem hasDirectory_cons (entries : List (Text × Node)) (name : Text) (rest : Location) :
    (directory entries).hasDirectory (name :: rest) =
      (Entries.get? entries name).any (·.hasDirectory rest) := by
  simp only [hasDirectory, get?]
  cases Entries.get? entries name <;> rfl

theorem hasDirectory_eq_true_iff {node : Node} {place : Location} :
    node.hasDirectory place = true ↔
      ∃ child, node.get? place = some child ∧ child.isDirectory = true := by
  unfold hasDirectory
  cases node.get? place with
  | none => simp
  | some child => simp

/-- Where no directory stands, none is below. -/
theorem not_isPrefix_of_hasDirectory {node : Node} {place other : Location}
    (h : node.hasDirectory place = false) (hother : node.hasDirectory other = true) :
    ¬ place <+: other := by
  rintro ⟨rest, rfl⟩
  simp only [hasDirectory, get?_append] at h hother
  cases hplace : node.get? place with
  | none => simp [hplace] at hother
  | some child =>
    cases child with
    | directory entries => simp [hplace, isDirectory] at h
    | file bytes => cases rest <;> simp [hplace, get?, isDirectory] at hother

/-- An operation at a place goes down to it and changes nothing but the entry there. -/
structure IsLocal (op : Node → Location → Node) : Prop where
  file : ∀ bytes name rest, op (.file bytes) (name :: rest) = .file bytes
  last : ∀ entries name, ∃ entries', op (.directory entries) [name] = .directory entries' ∧
    ∀ other, other ≠ name → Entries.get? entries' other = Entries.get? entries other
  below : ∀ entries name next rest, op (.directory entries) (name :: next :: rest) =
    match Entries.get? entries name with
    | some child => .directory (Entries.put entries name (op child (next :: rest)))
    | none => .directory entries

theorem isLocal_put (new : Node) : IsLocal (put · · new) where
  file _ _ _ := rfl
  last entries _ := ⟨_, rfl, fun _ => Entries.get?_put_of_ne entries new⟩
  below _ _ _ _ := rfl

theorem isLocal_erase : IsLocal erase where
  file _ _ _ := rfl
  last entries _ := ⟨_, rfl, fun _ => Entries.get?_erase_of_ne entries⟩
  below _ _ _ _ := rfl

/-- An operation at a place is seen by no directory but there and below. -/
theorem IsLocal.hasDirectory_eq {op : Node → Location → Node} (h : IsLocal op) {node : Node}
    {place other : Location} (hnot : ¬ place <+: other) :
    (op node place).hasDirectory other = node.hasDirectory other := by
  induction place generalizing node other with
  | nil => exact absurd List.nil_prefix hnot
  | cons name below ih =>
    cases node with
    | file bytes => rw [h.file]
    | directory entries =>
      cases below with
      | nil =>
        obtain ⟨entries', hop, hentries⟩ := h.last entries name
        rw [hop]
        cases other with
        | nil => rfl
        | cons first rest =>
          have hname : first ≠ name := by
            rintro rfl
            exact hnot ((List.prefix_cons_inj first).2 List.nil_prefix)
          rw [hasDirectory_cons, hasDirectory_cons, hentries first hname]
      | cons next below =>
        rw [h.below]
        cases hc : Entries.get? entries name with
        | none => rfl
        | some child =>
          cases other with
          | nil => rfl
          | cons first rest =>
            rw [hasDirectory_cons, hasDirectory_cons]
            by_cases hname : first = name
            · subst hname
              rw [Entries.get?_put_self, hc, Option.any_some, Option.any_some]
              exact ih fun hp => hnot ((List.prefix_cons_inj first).2 hp)
            · rw [Entries.get?_put_of_ne _ _ hname]

/-- A removal makes no directory. -/
theorem hasDirectory_of_erase {node : Node} {place other : Location}
    (h : (node.erase place).hasDirectory other = true) : node.hasDirectory other = true := by
  induction place generalizing node other with
  | nil => cases node <;> exact h
  | cons name below ih =>
    cases node with
    | file bytes => exact h
    | directory entries =>
      cases other with
      | nil => rfl
      | cons first rest =>
        by_cases hname : first = name
        · subst hname
          cases below with
          | nil => simp [erase, hasDirectory_cons, Entries.get?_erase_self] at h
          | cons next below =>
            cases hc : Entries.get? entries first with
            | none => simpa [erase, hc] using h
            | some child =>
              simp only [erase, hc, hasDirectory_cons, Entries.get?_put_self, Option.any_some]
                at h ⊢
              exact ih h
        · cases below with
          | nil => simpa [erase, hasDirectory_cons, Entries.get?_erase_of_ne _ hname] using h
          | cons next below =>
            cases hc : Entries.get? entries name with
            | none => simpa [erase, hc] using h
            | some child =>
              simpa [erase, hc, hasDirectory_cons, Entries.get?_put_of_ne _ _ hname] using h

theorem file?_eq_some_iff {node : Node} {place : Location} {bytes : List UInt8} :
    node.file? place = some bytes ↔ node.get? place = some (.file bytes) := by
  unfold file?
  split
  · next found hget => simp [hget]
  · next hnot =>
    simp only [reduceCtorEq, false_iff]
    exact hnot bytes

/-- Where a file stands, or nothing, there is no directory. -/
theorem hasDirectory_eq_false {node : Node} {place : Location}
    (h : ∀ entries, node.get? place ≠ some (.directory entries)) :
    node.hasDirectory place = false := by
  rw [Bool.eq_false_iff]
  intro hdirectory
  obtain ⟨child, hget, hchild⟩ := hasDirectory_eq_true_iff.1 hdirectory
  cases child with
  | file bytes => cases hchild
  | directory entries => exact h entries hget

end Node

namespace FilePath

/-- Goes from a directory to a name in it, or up. -/
def stepTo (place : Location) (name : Text) : Location :=
  if name = ".." then place.dropLast else place ++ [plain name]

/-- The place of a path: that at which a file system without links keeps its file. -/
def place (cwd : Location) (path : FilePath) : Location :=
  path.parts.foldl stepTo (if path.anchor = .here then cwd else [])

end FilePath

namespace FileSystem

/-! ## Later file systems -/

/-- The later file system has all directories of the earlier one, and the same working
directory. -/
structure Extends (fs later : FileSystem) : Prop where
  cwd : later.cwd = fs.cwd
  directories : ∀ place, fs.root.hasDirectory place = true → later.root.hasDirectory place = true

namespace Extends

variable {fs next later : FileSystem}

theorem refl (fs : FileSystem) : fs.Extends fs where
  cwd := rfl
  directories _ h := h

theorem trans (h : fs.Extends next) (h' : next.Extends later) : fs.Extends later where
  cwd := h'.cwd.trans h.cwd
  directories place hplace := h'.directories place (h.directories place hplace)

theorem hasDirectory_eq_false (h : fs.Extends later) {place : Location}
    (hnone : later.root.hasDirectory place = false) : fs.root.hasDirectory place = false :=
  Bool.eq_false_iff.2 fun hplace => Bool.eq_false_iff.1 hnone (h.directories place hplace)

end Extends

/-- What is put where no directory stands takes no directory away. -/
theorem extends_put {fs : FileSystem} {place : Location} (new : Node)
    (h : fs.root.hasDirectory place = false) : fs.Extends (fs.put place new) where
  cwd := rfl
  directories other hother := by
    have hnot := Node.not_isPrefix_of_hasDirectory h hother
    exact ((Node.isLocal_put new).hasDirectory_eq hnot).trans hother

/-- Removing what is no directory takes no directory away. -/
theorem extends_erase {fs : FileSystem} {place : Location}
    (h : fs.root.hasDirectory place = false) : fs.Extends (fs.erase place) where
  cwd := rfl
  directories other hother := by
    have hnot := Node.not_isPrefix_of_hasDirectory h hother
    exact (Node.isLocal_erase.hasDirectory_eq hnot).trans hother

/-! ## Where walks end -/

variable {fs later : FileSystem} {here there : Standing} {path : FilePath}

/-- The names on the way to a directory, the last one first, after a further step. -/
def trailTo (trail : List Text) (name : Text) : List Text :=
  if name = ".." then trail.tail else FilePath.plain name :: trail

theorem reverse_trailTo (trail : List Text) (name : Text) :
    (trailTo trail name).reverse = FilePath.stepTo trail.reverse name := by
  unfold trailTo FilePath.stepTo
  split
  · exact List.dropLast_reverse.symm
  · exact List.reverse_cons

theorem stand_eq_ok_iff {trail : List Text} {fault : Fault} :
    (match fs.get? trail.reverse with
      | some node => Except.ok (Standing.mk trail node)
      | none => .error fault) = .ok there ↔ there.trail = trail ∧ there.IsIn fs := by
  obtain ⟨trail', node'⟩ := there
  simp only [Standing.IsIn]
  cases hget : fs.get? trail.reverse with
  | none =>
    simp only [reduceCtorEq, false_iff, not_and]
    rintro rfl hfound
    cases hget.symm.trans hfound
  | some found =>
    simp only [Except.ok.injEq, Standing.mk.injEq]
    constructor
    · rintro ⟨rfl, rfl⟩
      exact ⟨rfl, hget⟩
    · rintro ⟨rfl, hfound⟩
      exact ⟨rfl, Option.some.inj (hget.symm.trans hfound)⟩

/-- A step leads out of a directory, to what stands at the place after the step. -/
theorem enter_eq_ok_iff (hin : here.IsIn fs) {name : Text} :
    fs.enter here name = .ok there ↔ here.node.isDirectory = true ∧
      (name = ".." ∨ isTooLong name = false) ∧ there.trail = trailTo here.trail name ∧
      there.IsIn fs := by
  obtain ⟨trail, node⟩ := here
  cases node with
  | file bytes => simp [enter, Node.isDirectory]
  | directory entries =>
    have hentry : fs.get? (FilePath.plain name :: trail).reverse =
        Entries.get? entries (FilePath.plain name) := by
      have hget : fs.root.get? trail.reverse = some (.directory entries) := hin
      rw [get?, List.reverse_cons, Node.get?_append, hget, Option.bind_some, Node.get?]
      cases Entries.get? entries (FilePath.plain name) <;> rfl
    by_cases hup : name = ".."
    · simp only [enter, trailTo, Node.isDirectory, hup, if_true, true_or, true_and]
      exact stand_eq_ok_iff
    · cases hlong : isTooLong name with
      | true => simp [enter, hup, hlong]
      | false =>
        simp only [enter, trailTo, Node.isDirectory, if_neg hup, hlong, Bool.false_eq_true, if_false,
          or_true, true_and, ← hentry]
        exact stand_eq_ok_iff

theorem walk_cons_eq_ok_iff {name : Text} {rest : List Text} :
    fs.walk here (name :: rest) = .ok there ↔
      ∃ next, fs.enter here name = .ok next ∧ fs.walk next rest = .ok there :=
  bind_eq_ok_iff

theorem walk_append_eq_ok_iff {names more : List Text} :
    fs.walk here (names ++ more) = .ok there ↔
      ∃ next, fs.walk here names = .ok next ∧ fs.walk next more = .ok there := by
  induction names generalizing here with
  | nil => simp [walk]
  | cons name rest ih =>
    simp only [List.cons_append, walk_cons_eq_ok_iff, ih]
    constructor
    · rintro ⟨next, hnext, last, hlast, hthere⟩
      exact ⟨last, ⟨next, hnext, hlast⟩, hthere⟩
    · rintro ⟨last, ⟨next, hnext, hlast⟩, hthere⟩
      exact ⟨next, hnext, last, hlast, hthere⟩

theorem reverse_trail_of_walk {names : List Text} (hin : here.IsIn fs)
    (h : fs.walk here names = .ok there) :
    there.trail.reverse = names.foldl FilePath.stepTo here.trail.reverse := by
  induction names generalizing here with
  | nil =>
    obtain rfl := Except.ok.inj h
    rfl
  | cons name rest ih =>
    obtain ⟨next, hnext, hrest⟩ := walk_cons_eq_ok_iff.1 h
    obtain ⟨-, -, htrail, hin'⟩ := (enter_eq_ok_iff hin).1 hnext
    rw [ih hin' hrest, htrail, reverse_trailTo, List.foldl_cons]

theorem reverse_trail_of_start (h : fs.start path = .ok here) :
    here.trail.reverse = if path.anchor = .here then fs.cwd else [] := by
  unfold start at h
  split at h
  · next hanchor =>
    split at h
    · obtain rfl := Except.ok.inj h
      rw [if_pos hanchor, List.reverse_reverse]
    · contradiction
  · next hanchor =>
    obtain rfl := Except.ok.inj h
    rw [if_neg hanchor]
    rfl

/-- A walk that ends in a directory starts in one. -/
theorem isDirectory_of_walk {names : List Text} (hin : here.IsIn fs)
    (h : fs.walk here names = .ok there) (hthere : there.node.isDirectory = true) :
    here.node.isDirectory = true := by
  cases names with
  | nil =>
    obtain rfl := Except.ok.inj h
    exact hthere
  | cons name rest =>
    obtain ⟨next, hnext, -⟩ := walk_cons_eq_ok_iff.1 h
    exact ((enter_eq_ok_iff hin).1 hnext).1

/-! ## Walks in a later file system -/

/-- The directory of a walk is one in a later file system. -/
theorem Extends.isDirectory (h : fs.Extends later) {here' : Standing} (hin : here.IsIn fs)
    (hin' : here'.IsIn later) (htrail : here'.trail = here.trail)
    (hhere : here.node.isDirectory = true) : here'.node.isDirectory = true := by
  have hdirectory := h.directories _ (Node.hasDirectory_eq_true_iff.2 ⟨here.node, hin, hhere⟩)
  obtain ⟨node, hget, hnode⟩ := Node.hasDirectory_eq_true_iff.1 hdirectory
  have hget' : later.root.get? here.trail.reverse = some here'.node := htrail ▸ hin'
  obtain rfl := Option.some.inj (hget.symm.trans hget')
  exact hnode

/-- In a later file system the same walk leads to the same directory. -/
theorem Extends.walk (h : fs.Extends later) {here' : Standing} (hin : here.IsIn fs)
    (hin' : here'.IsIn later) (htrail : here'.trail = here.trail) {names : List Text}
    (hwalk : fs.walk here names = .ok there) (hthere : there.node.isDirectory = true) :
    ∃ there', later.walk here' names = .ok there' ∧ there'.trail = there.trail := by
  induction names generalizing here here' with
  | nil =>
    obtain rfl := Except.ok.inj hwalk
    exact ⟨here', rfl, htrail⟩
  | cons name rest ih =>
    obtain ⟨next, hnext, hrest⟩ := walk_cons_eq_ok_iff.1 hwalk
    obtain ⟨hhere, hname, hnextTrail, hnextIn⟩ := (enter_eq_ok_iff hin).1 hnext
    have hnextDirectory := isDirectory_of_walk hnextIn hrest hthere
    have hdirectory := h.directories _
      (Node.hasDirectory_eq_true_iff.2 ⟨next.node, hnextIn, hnextDirectory⟩)
    obtain ⟨node, hget, -⟩ := Node.hasDirectory_eq_true_iff.1 hdirectory
    have hnext' : later.enter here' name = .ok ⟨next.trail, node⟩ :=
      (enter_eq_ok_iff hin').2 ⟨h.isDirectory hin hin' htrail hhere, hname,
        htrail ▸ hnextTrail, hget⟩
    have hnextIn' : Standing.IsIn ⟨next.trail, node⟩ later := hget
    obtain ⟨there', hthere', hend⟩ := ih hnextIn hnextIn' rfl hrest
    exact ⟨there', walk_cons_eq_ok_iff.2 ⟨_, hnext', hthere'⟩, hend⟩

theorem Extends.start (h : fs.Extends later) (hstart : fs.start path = .ok here)
    (hhere : here.node.isDirectory = true) :
    ∃ here', later.start path = .ok here' ∧ here'.trail = here.trail := by
  unfold FileSystem.start at hstart ⊢
  split
  · next hanchor =>
    rw [if_pos hanchor] at hstart
    split at hstart
    · next node hnode =>
      obtain rfl := Except.ok.inj hstart
      have hdirectory := h.directories _ (Node.hasDirectory_eq_true_iff.2 ⟨node, hnode, hhere⟩)
      obtain ⟨node', hget, -⟩ := Node.hasDirectory_eq_true_iff.1 hdirectory
      have hget' : later.get? later.cwd = some node' := h.cwd.symm ▸ hget
      exact ⟨⟨later.cwd.reverse, node'⟩, by rw [hget'], by rw [h.cwd]⟩
    · contradiction
  · next hanchor =>
    rw [if_neg hanchor] at hstart
    obtain rfl := Except.ok.inj hstart
    exact ⟨_, rfl, rfl⟩

/-! ## Files of paths -/

/-- The slot of a path is an entry in the directory to which the names before its last one lead. -/
theorem slot_eq_ok_iff {dots : Fault} {place : Location} {node : Option Node} :
    fs.slot dots path = .ok (place, node) ↔ ∃ (names : List Text) (name : Text)
      (here there : Standing) (entries : List (Text × Node)),
      path.parts = names ++ [name] ∧ fs.start path = .ok here ∧ fs.walk here names = .ok there ∧
      there.node = .directory entries ∧ name ≠ ".." ∧ isTooLong name = false ∧
      place = there.trail.reverse ++ [FilePath.plain name] ∧
      node = Entries.get? entries (FilePath.plain name) := by
  unfold slot
  rcases List.eq_nil_or_concat' path.parts with hnil | ⟨names, name, hparts⟩
  · simp [hnil]
  · simp only [hparts, List.getLast?_concat, List.dropLast_concat, bind_eq_ok_iff]
    constructor
    · rintro ⟨here, hstart, there, hwalk, h⟩
      split at h
      · contradiction
      · next entries hnode =>
        split at h
        · contradiction
        · next hname =>
          split at h
          · contradiction
          · next hshort =>
            obtain ⟨rfl, rfl⟩ := Prod.mk.inj (pure_eq_ok_iff.1 h)
            exact ⟨names, name, here, there, entries, rfl, hstart, hwalk, hnode, hname,
              by simpa using hshort, List.reverse_cons, rfl⟩
    · rintro ⟨names', name', here, there, entries, hsame, hstart, hwalk, hnode, hname, hshort, rfl,
        rfl⟩
      obtain ⟨rfl, rfl⟩ := List.append_inj' hsame rfl |>.imp id List.singleton_inj.1
      refine ⟨here, hstart, there, hwalk, ?_⟩
      rw [hnode]
      simp only [if_neg hname, hshort, Bool.false_eq_true, if_false, List.reverse_cons]
      rfl

/-- The slot of a path is at its place. -/
theorem place_of_slot {dots : Fault} {place : Location} {node : Option Node}
    (h : fs.slot dots path = .ok (place, node)) : place = path.place fs.cwd := by
  obtain ⟨names, name, here, there, entries, hparts, hstart, hwalk, -, hname, -, rfl, -⟩ :=
    slot_eq_ok_iff.1 h
  rw [FilePath.place, hparts, List.foldl_append, ← reverse_trail_of_start hstart,
    ← reverse_trail_of_walk (isIn_of_start hstart) hwalk, List.foldl_cons, List.foldl_nil,
    FilePath.stepTo, if_neg hname]

/-- The system can be asked for a path, and the path ends with the name of a file in a directory,
be the file there or not. -/
structure Names (fs : FileSystem) (path : FilePath) : Prop where
  ask : ask path = .ok ()
  exists_slot : ∃ dots place node, fs.slot dots path = .ok (place, node)

/-- A path that names a file keeps naming it. -/
theorem Names.of_extends (h : fs.Names path) (hextends : fs.Extends later) : later.Names path where
  ask := h.ask
  exists_slot := by
    obtain ⟨dots, place, node, hslot⟩ := h.exists_slot
    obtain ⟨names, name, here, there, entries, hparts, hstart, hwalk, hnode, hname, hshort, -, -⟩ :=
      slot_eq_ok_iff.1 hslot
    have hin := isIn_of_start hstart
    have hthere : there.node.isDirectory = true := by rw [hnode]; rfl
    obtain ⟨here', hstart', htrail⟩ := hextends.start hstart (isDirectory_of_walk hin hwalk hthere)
    have hin' := isIn_of_start hstart'
    obtain ⟨there', hwalk', htrail'⟩ := hextends.walk hin hin' htrail hwalk hthere
    have hdirectory := hextends.isDirectory (isIn_of_walk hin hwalk) (isIn_of_walk hin' hwalk')
      htrail' hthere
    cases hnode' : there'.node with
    | file bytes => simp [hnode', Node.isDirectory] at hdirectory
    | directory entries' =>
      exact ⟨dots, _, _, slot_eq_ok_iff.2 ⟨names, name, here', there', entries', hparts, hstart',
        hwalk', hnode', hname, hshort, rfl, rfl⟩⟩

/-- The file at the place of a path that names one is read by the path. -/
theorem Names.readFile_eq (h : fs.Names path) {bytes : List UInt8}
    (hfile : fs.file? (path.place fs.cwd) = some bytes) : fs.readFile path = .ok bytes := by
  obtain ⟨dots, place, node, hslot⟩ := h.exists_slot
  obtain rfl := place_of_slot hslot
  obtain ⟨-, -, hget⟩ := get?_of_slot hslot
  obtain ⟨names, name, here, there, entries, hparts, hstart, hwalk, hnode, hname, hshort, -, rfl⟩ :=
    slot_eq_ok_iff.1 hslot
  have hentry : Entries.get? entries (FilePath.plain name) = some (.file bytes) :=
    hget.symm.trans (Node.file?_eq_some_iff.1 hfile)
  have henter : fs.walk there [name] = .ok ⟨FilePath.plain name :: there.trail, .file bytes⟩ := by
    refine walk_cons_eq_ok_iff.2 ⟨_, ?_, rfl⟩
    simp only [enter, hnode, if_neg hname, hshort, Bool.false_eq_true, if_false, hentry]
  have hfind : fs.find path = .ok (.file bytes) := by
    have hwhole := walk_append_eq_ok_iff.2 ⟨there, hwalk, henter⟩
    rw [← hparts] at hwhole
    exact bind_eq_ok_iff.2 ⟨(), h.ask, bind_eq_ok_iff.2 ⟨here, mapError_eq_ok_iff.2 hstart,
      bind_eq_ok_iff.2 ⟨_, mapError_eq_ok_iff.2 hwhole, rfl⟩⟩⟩
  rw [readFile, hfind]
  rfl

/-- What can be written is a file, or nothing yet, in a directory. -/
theorem of_writable {dots : Fault} {place : Location} (h : fs.writable dots path = .ok place) :
    fs.Names path ∧ place = path.place fs.cwd ∧ fs.root.hasDirectory place.dropLast = true ∧
      fs.root.hasDirectory place = false := by
  obtain ⟨_, hask, h⟩ := bind_eq_ok_iff.1 h
  obtain ⟨⟨slot, node⟩, hslot, h⟩ := bind_eq_ok_iff.1 h
  have hslot := mapError_eq_ok_iff.1 hslot
  obtain ⟨-, hparent, hget⟩ := get?_of_slot hslot
  have hplace : slot = place ∧ ∀ entries, node ≠ some (.directory entries) := by
    match node, h with
    | none, h => exact ⟨pure_eq_ok_iff.1 h, by simp⟩
    | some (.file bytes), h => exact ⟨pure_eq_ok_iff.1 h, by simp⟩
  obtain ⟨rfl, hnode⟩ := hplace
  exact ⟨⟨hask, dots, slot, node, hslot⟩, place_of_slot hslot, hparent,
    Node.hasDirectory_eq_false fun entries hdirectory =>
      hnode entries (hget.symm.trans hdirectory)⟩

/-- A directory is made where nothing stands. -/
theorem of_makeDirectory (h : fs.makeDirectory path = .ok later) :
    ∃ place, fs.get? place = none ∧ later = fs.put place (.directory []) := by
  obtain ⟨_, -, h⟩ := bind_eq_ok_iff.1 h
  obtain ⟨⟨place, node⟩, hslot, h⟩ := bind_eq_ok_iff.1 h
  obtain ⟨-, -, hget⟩ := get?_of_slot (mapError_eq_ok_iff.1 hslot)
  cases node with
  | some node => cases h
  | none => exact ⟨place, hget, (pure_eq_ok_iff.1 h).symm⟩

end FileSystem

end SchemaScribe
