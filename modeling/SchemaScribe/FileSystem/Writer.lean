import SchemaScribe.Compile
import SchemaScribe.FileSystem.Basic
import SchemaScribe.Text.Utf8

/-!
# Writing generated files

`Writer.write` writes one file and `Writer.writeAll` all files of an output. The directories
on the way are created first. A file is written in place, or under a temporary name beside its
own and then moved over it, so that a failure leaves the file as it was.

Directories are created from the innermost that is there, and the way back to it has a bound: a
writer gives up when too many in a row are missing, before it has created any.

The file system is a tree without links, in which each file has one name, and without permissions.
The system may deny an operation all the same, for whatever reason: `Writer.grants` tells which ones
it grants to the process. What it grants is done; there is always room for it.

Each operation answers with its outcome and the file system it leaves behind, also when it fails.
-/

namespace SchemaScribe

open SchemaScribe.Path (Location)

/-- Why a file is not written. -/
inductive WriteError where
  /-- A file is in the way and may not be overwritten. -/
  | inTheWay (path : Text)
  /-- An operation on the file of a path failed. -/
  | system (fault : Fault) (path : Text)
  /-- A file could not be moved over another. -/
  | move (fault : Fault) (source target : Text)
  /-- The system cannot be asked for a path. -/
  | unusable (e : PathError)
  | encoding (e : Utf8.EncodeError)
  /-- More directories are missing in a row than are created at once. -/
  | tooDeep
  deriving DecidableEq, Repr, Inhabited

/-- The text of an error. -/
def WriteError.message : WriteError → Text
  | .inTheWay path =>
    "Output file already exists: " ++ path ++ ". Use force mode to overwrite."
  | .system fault path => fault.message path
  | .move fault source target => fault.message source ++ " -> " ++ Text.quoted target
  | .unusable e => e.message
  | .encoding e => e.message
  | .tooDeep => "maximum recursion depth exceeded while calling a Python object"

/-- The error of an operation on the file of a path. -/
def AccessError.onWriting (path : FilePath) : AccessError → WriteError
  | .unusable e => .unusable e
  | .refused fault => .system fault path.toText

/-- The outcome of an operation and the file system after it. -/
abbrev Effect (α : Type) := Except WriteError α × FileSystem

/-- An operation on the file of a path for which a process needs a right. -/
inductive Operation where
  /-- To tell what is there. -/
  | look
  | makeDirectory
  /-- To make a new file. -/
  | create
  /-- To open a file for writing, or a new one where none is. -/
  | overwrite
  /-- To move a file there. -/
  | replace
  deriving DecidableEq, Repr, Inhabited

/-- What writes files. -/
structure Writer where
  /-- Makes the name of a temporary file one that no other file has. -/
  token : Text
  /-- The number of missing directories in a row that are created for a file written by itself. -/
  maxMissing : Nat := 989
  /-- Whether the system, as it stands, lets the process do an operation on the file of a path. -/
  grants : FileSystem → Operation → FilePath → Bool := fun _ _ _ => true
  deriving Inhabited

namespace Writer

/-- The outcome of an operation on the file of a path, if the system grants it. -/
def attempt {α : Type} (writer : Writer) (fs : FileSystem) (operation : Operation)
    (path : FilePath) (outcome : Except AccessError α) : Except AccessError α :=
  if writer.grants fs operation path then outcome else .error (.refused .denied)

/-! ## Directories -/

/-- Accepts a fault in creating a directory when the directory is there. -/
def accept (writer : Writer) (fs : FileSystem) (path : FilePath) (e : AccessError) :
    Effect Unit :=
  match writer.attempt fs .look path (.ok (fs.isDirectory path)) with
  | .error denied => (.error (denied.onWriting path), fs)
  | .ok true => (.ok (), fs)
  | .ok false => (.error (e.onWriting path), fs)

/-- Creates the directory of a path, given by its names in reverse, and those above it; at most
`missing` of them may not be there. -/
def makeAll (writer : Writer) (anchor : Anchor) :
    (missing : Nat) → List Text → FileSystem → Effect Unit
  | _, [], fs => (.ok (), fs)
  | 0, _ :: _, fs => (.error .tooDeep, fs)
  | missing + 1, name :: above, fs =>
    let path : FilePath := ⟨anchor, (name :: above).reverse⟩
    match writer.attempt fs .makeDirectory path (fs.makeDirectory path) with
    | .ok fs => (.ok (), fs)
    | .error (.refused .notFound) =>
      match makeAll writer anchor missing above fs with
      | (.error e, fs) => (.error e, fs)
      | (.ok (), fs) =>
        match writer.attempt fs .makeDirectory path (fs.makeDirectory path) with
        | .ok fs => (.ok (), fs)
        | .error e => writer.accept fs path e
    | .error e => writer.accept fs path e

/-- Creates the directory of a path and those above it, unless they are there. -/
def makeDirectories (writer : Writer) (fs : FileSystem) (path : FilePath) : Effect Unit :=
  writer.makeAll path.anchor writer.maxMissing path.parts.reverse fs

/-! ## Files -/

/-- Whether something stands at the end of a path; a path that cannot be walked ends nowhere,
unless it is too long to ask or the system does not tell. -/
def isThere (writer : Writer) (fs : FileSystem) (path : FilePath) : Except WriteError Bool :=
  match writer.attempt fs .look path (fs.find path) with
  | .ok _ => .ok true
  | .error (.refused .nameTooLong) => .error (.system .nameTooLong path.toText)
  | .error (.refused .denied) => .error (.system .denied path.toText)
  | .error _ => .ok false

/-- Writes a file in place: the old content is gone before the new one is encoded. -/
def writeInPlace (writer : Writer) (fs : FileSystem) (path : FilePath) (content : Text) :
    Effect Unit :=
  match writer.attempt fs .overwrite path (fs.writable .isDirectory path) with
  | .error e => (.error (e.onWriting path), fs)
  | .ok place =>
    match Utf8.encode content with
    | .error e => (.error (.encoding e), fs.put place (.file []))
    | .ok bytes => (.ok (), fs.put place (.file bytes))

/-- The temporary name beside a file name. -/
def temporaryName (token name : Text) : Text := "." ++ name ++ "." ++ token ++ ".tmp"

/-- The absolute path of a temporary file. -/
def temporaryPath (fs : FileSystem) (path : FilePath) (token : Text) : FilePath :=
  ⟨if path.anchor = .here then .root else path.anchor,
    path.parent.location fs.cwd ++ [temporaryName token path.name]⟩

/-- Writes a file under a temporary name, and moves it over the file of the path. The temporary
file is gone afterwards in any case. -/
def writeAside (writer : Writer) (fs : FileSystem) (path : FilePath) (content : Text) :
    Effect Unit :=
  let temporary := temporaryPath fs path writer.token
  match writer.attempt fs .create temporary (fs.writable .isDirectory temporary) with
  | .error e => (.error (e.onWriting temporary), fs)
  | .ok place =>
    match Utf8.encode content with
    | .error e => (.error (.encoding e), (fs.put place (.file [])).erase place)
    | .ok bytes =>
      let written := fs.put place (.file bytes)
      match writer.attempt written .replace path (written.writable .busy path) with
      | .error (.unusable e) => (.error (.unusable e), written.erase place)
      | .error (.refused fault) =>
        (.error (.move fault temporary.toText path.toText), written.erase place)
      | .ok target => (.ok (), (written.erase place).put target (.file bytes))

/-- Writes a file. -/
def write (writer : Writer) (options : OutputOptions) (fs : FileSystem) (path : FilePath)
    (content : Text) : Effect Unit :=
  let refused : Except WriteError Bool :=
    match options.mode with
    | .overwrite => .ok false
    | .refuse => writer.isThere fs path
  match refused with
  | .error e => (.error e, fs)
  | .ok true => (.error (.inTheWay path.toText), fs)
  | .ok false =>
    match writer.makeDirectories fs path.parent with
    | (.error e, fs) => (.error e, fs)
    | (.ok (), fs) =>
      if options.atomic.isTruthy then writer.writeAside fs path content
      else writer.writeInPlace fs path content

/-! ## Outputs -/

/-- Writes files below a folder, one after the other, up to the first that fails. Answers with
the paths written and a notice of each. -/
def writeFiles (writer : Writer) (options : OutputOptions) (folder : FilePath) :
    FileSystem → List ModuleFile → Except WriteError (List FilePath) × List Notice × FileSystem
  | fs, [] => (.ok [], [], fs)
  | fs, file :: rest =>
    let path := folder.join file.name
    match writer.write options fs path file.content with
    | (.error e, fs) => (.error e, [], fs)
    | (.ok (), fs) =>
      let (result, notices, fs) := writeFiles writer options folder fs rest
      (result.map (path :: ·), .wrote path.toText :: notices, fs)

/-- Writes all files of an output below a folder: enumerations, then tables. The output itself
takes one from the number of directories that may be missing. -/
def writeAll (writer : Writer) (options : OutputOptions) (fs : FileSystem) (output : Output)
    (folder : FilePath) : Except WriteError (List FilePath) × List Notice × FileSystem :=
  let inner := { writer with maxMissing := writer.maxMissing - 1 }
  match inner.writeFiles options folder fs output.files with
  | (.error e, notices, fs) => (.error e, notices, fs)
  | (.ok paths, notices, fs) =>
    (.ok paths, notices ++ [.wroteAll paths.length folder.toText], fs)

end Writer

end SchemaScribe
