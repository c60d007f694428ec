import SchemaScribe.FileSystem.Fault
import SchemaScribe.FileSystem.Node
import SchemaScribe.Path.File

/-!
# File systems

A tree of directories and files, and the working directory of a process. `FileSystem.file?` is the
view that the laws speak about: the bytes of the regular file at a place. As in the tree, each file
has one name, and every operation is permitted.

An operation names a file by a path. The system has to be able to take the path at all, and then
walks it name by name from the root or from the working directory. The first name that cannot be
passed decides the fault.
-/

namespace SchemaScribe

open SchemaScribe.Path (Location)

/-- Why an operation on the file of a path fails. -/
inductive AccessError where
  /-- The system cannot be asked for the path. -/
  | unusable (e : PathError)
  /-- The system refuses. -/
  | refused (fault : Fault)
  deriving DecidableEq, Repr, Inhabited

/-- A file system and the working directory of a process. -/
structure FileSystem where
  cwd : Location
  root : Node := .directory []
  deriving Repr, Inhabited

namespace FileSystem

/-! ## Places -/

/-- What stands at a place. -/
def get? (fs : FileSystem) (place : Location) : Option Node := fs.root.get? place

/-- The bytes of the regular file at a place. -/
def file? (fs : FileSystem) (place : Location) : Option (List UInt8) := fs.root.file? place

/-- Puts a node at a place. -/
def put (fs : FileSystem) (place : Location) (node : Node) : FileSystem :=
  { fs with root := fs.root.put place node }

/-- Removes what stands at a place. -/
def erase (fs : FileSystem) (place : Location) : FileSystem :=
  { fs with root := fs.root.erase place }

/-- A file that is put where a directory can hold it is there. -/
theorem file?_put_self {fs : FileSystem} {place : Location} (bytes : List UInt8)
    (h : place = [] ∨ fs.root.hasDirectory place.dropLast = true) :
    (fs.put place (.file bytes)).file? place = some bytes := by
  have := Node.file?_put_append (.file bytes) [] h
  simpa [file?, put, Node.file?_file] using this

/-- A file that is put where no directory stands changes no other file. -/
theorem file?_put_of_ne {fs : FileSystem} {place other : Location} (bytes : List UInt8)
    (h : fs.root.hasDirectory place = false) (hne : other ≠ place) :
    (fs.put place (.file bytes)).file? other = fs.file? other :=
  Node.file?_put_file bytes h hne

/-- A directory that is put where nothing stands changes no file. -/
theorem file?_put_directory {fs : FileSystem} {place : Location} (other : Location)
    (h : fs.get? place = none) :
    (fs.put place (.directory [])).file? other = fs.file? other :=
  Node.file?_put_directory other h

theorem file?_erase_self {fs : FileSystem} {place : Location} (h : place ≠ []) :
    (fs.erase place).file? place = none :=
  Node.file?_erase_self h

/-- Removing what is no directory removes no other file. -/
theorem file?_erase_of_ne {fs : FileSystem} {place other : Location}
    (h : fs.root.hasDirectory place = false) (hne : other ≠ place) :
    (fs.erase place).file? other = fs.file? other :=
  Node.file?_erase h hne

/-! ## Walking a path -/

/-- Succeeds when the system can be asked for a path; otherwise, or when the path is too long,
nothing is walked. -/
def ask (path : FilePath) : Except AccessError Unit := do
  let bytes ← path.bytes.mapError .unusable
  if maxPath < bytes.length then .error (.refused .nameTooLong)

/-- Whether a name is longer than the system allows. -/
def isTooLong (name : Text) : Bool :=
  match FilePath.encode name with
  | .ok bytes => maxName < bytes.length
  | .error _ => false

/-- How far a walk has come: the names from the root on, the last one first, and what stands
there. -/
structure Standing where
  trail : List Text
  node : Node
  deriving Repr, Inhabited

/-- Where the walk along a path starts. -/
def start (fs : FileSystem) (path : FilePath) : Except Fault Standing :=
  if path.anchor = .here then
    match fs.get? fs.cwd with
    | some node => .ok ⟨fs.cwd.reverse, node⟩
    | none => .error .notFound
  else .ok ⟨[], fs.root⟩

/-- Goes from a directory to the entry of a name in it. -/
def enter (fs : FileSystem) (here : Standing) (name : Text) : Except Fault Standing :=
  match here.node with
  | .file _ => .error .notDirectory
  | .directory entries =>
    if name = ".." then
      match fs.get? here.trail.tail.reverse with
      | some node => .ok ⟨here.trail.tail, node⟩
      | none => .error .notFound
    else if isTooLong name then .error .nameTooLong
    else match Entries.get? entries (FilePath.plain name) with
      | some node => .ok ⟨FilePath.plain name :: here.trail, node⟩
      | none => .error .notFound

/-- Walks along names. -/
def walk (fs : FileSystem) (here : Standing) : List Text → Except Fault Standing
  | [] => .ok here
  | name :: rest => do walk fs (← fs.enter here name) rest

/-- What stands at the end of a path. -/
def find (fs : FileSystem) (path : FilePath) : Except AccessError Node := do
  ask path
  let here ← (fs.start path).mapError .refused
  let there ← (fs.walk here path.parts).mapError .refused
  return there.node

/-- The place of a path whose last name need not exist, in a directory that does, and what stands
there. `dots` is the fault when the path has no name at its end, or only `..`. -/
def slot (fs : FileSystem) (dots : Fault) (path : FilePath) :
    Except Fault (Location × Option Node) := do
  match path.parts.getLast? with
  | none => .error dots
  | some name =>
    let here ← fs.walk (← fs.start path) path.parts.dropLast
    match here.node with
    | .file _ => .error .notDirectory
    | .directory entries =>
      if name = ".." then .error dots
      else if isTooLong name then .error .nameTooLong
      else
        let name := FilePath.plain name
        return ((name :: here.trail).reverse, Entries.get? entries name)

/-! ## Operations -/

/-- The bytes of the file of a path. -/
def readFile (fs : FileSystem) (path : FilePath) : Except AccessError (List UInt8) := do
  match ← fs.find path with
  | .file bytes => return bytes
  | .directory _ => .error (.refused .isDirectory)

/-- Whether a directory stands at the end of a path. -/
def isDirectory (fs : FileSystem) (path : FilePath) : Bool :=
  match fs.find path with
  | .ok node => node.isDirectory
  | .error _ => false

/-- Creates a directory in one that exists. -/
def makeDirectory (fs : FileSystem) (path : FilePath) : Except AccessError FileSystem := do
  ask path
  match ← (fs.slot .exists path).mapError .refused with
  | (_, some _) => .error (.refused .exists)
  | (place, none) => return fs.put place (.directory [])

/-- The place at which a file can be put, `dots` being the fault when the path has no name at its
end, or only `..`. -/
def writable (fs : FileSystem) (dots : Fault) (path : FilePath) : Except AccessError Location := do
  ask path
  match ← (fs.slot dots path).mapError .refused with
  | (_, some (.directory _)) => .error (.refused .isDirectory)
  | (place, _) => return place

/-! ## What a walk and a slot say -/

/-- A walk that stands where the tree says so. -/
def Standing.IsIn (here : Standing) (fs : FileSystem) : Prop :=
  fs.get? here.trail.reverse = some here.node

theorem isIn_of_start {fs : FileSystem} {path : FilePath} {here : Standing}
    (h : fs.start path = .ok here) : here.IsIn fs := by
  unfold start at h
  split at h
  · split at h
    · next node hnode =>
      injection h with h
      subst h
      simpa [Standing.IsIn] using hnode
    · contradiction
  · injection h with h
    subst h
    rfl

theorem isIn_of_enter {fs : FileSystem} {here there : Standing} {name : Text}
    (hin : here.IsIn fs) (h : fs.enter here name = .ok there) : there.IsIn fs := by
  unfold enter at h
  split at h
  · contradiction
  · next entries hnode =>
    split at h
    · split at h
      · next node hget =>
        injection h with h
        subst h
        exact hget
      · contradiction
    · split at h
      · contradiction
      · split at h
        · next node hget =>
          injection h with h
          subst h
          simp only [Standing.IsIn, get?, List.reverse_cons, Node.get?_append] at hin ⊢
          rw [hin, hnode]
          simp [Node.get?, hget]
        · contradiction

theorem isIn_of_walk {fs : FileSystem} {here there : Standing} {names : List Text}
    (hin : here.IsIn fs) (h : fs.walk here names = .ok there) : there.IsIn fs := by
  induction names generalizing here with
  | nil =>
    injection h with h
    exact h ▸ hin
  | cons name rest ih =>
    simp only [walk, bind, Except.bind] at h
    split at h
    · contradiction
    · next next hnext => exact ih (isIn_of_enter hin hnext) h

/-- A slot is in a directory, and what it tells stands there. -/
theorem get?_of_slot {fs : FileSystem} {dots : Fault} {path : FilePath} {place : Location}
    {node : Option Node} (h : fs.slot dots path = .ok (place, node)) :
    place ≠ [] ∧ fs.root.hasDirectory place.dropLast = true ∧ fs.get? place = node := by
  unfold slot at h
  split at h
  · contradiction
  · next name hname =>
    simp only [bind, Except.bind] at h
    split at h
    · contradiction
    · next here hhere =>
      split at h
      · contradiction
      · next there hthere =>
        have hin := isIn_of_walk (isIn_of_start hhere) hthere
        split at h
        · contradiction
        · next entries hnode =>
          split at h
          · contradiction
          · split at h
            · contradiction
            · simp only [pure, Except.pure, Except.ok.injEq, Prod.mk.injEq] at h
              obtain ⟨rfl, rfl⟩ := h
              simp only [Standing.IsIn, get?, hnode] at hin
              refine ⟨by simp, ?_, ?_⟩
              · simp [Node.hasDirectory, hin, Node.isDirectory]
              · simp [get?, Node.get?_append, hin, Node.get?]
                cases Entries.get? entries (FilePath.plain name) <;> rfl

end FileSystem

end SchemaScribe
