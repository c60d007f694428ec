import SchemaScribe.CommandLine.Run

/-!
# The places that a run depends on

A run looks only at the places on the way to its arguments, `CommandLine.placesOfArguments`, and
to the files that it is about to write, `CommandLine.placesOfOutput`. A file system that agrees
with another at these places is as good for the run, so that no more than these have to be
looked up before it, and `CommandLine.changes` tells what it leaves to be done.
-/

namespace SchemaScribe.CommandLine

open SchemaScribe.Path (Location)

/-- The places that a walk along names comes by, the first one left out; the names are spelled as
directories keep them. -/
def placesAlong (start : Location) (names : List Text) : List Location :=
  (List.range names.length).map fun n =>
    Path.walk start ((names.take (n + 1)).map FilePath.plain)

/-- The places on the way to a directory. -/
def placesAbove (place : Location) : List Location := placesAlong [] place

/-- The places on the way along a path. -/
def placesOfPath (cwd : Location) (path : FilePath) : List Location :=
  if path.anchor = .here then placesAbove cwd ++ placesAlong cwd path.parts
  else placesAlong [] path.parts

/-- The places on the way to the files that an argument list names. -/
def placesOfArguments (cwd : Location) (list : List Text) : List Location :=
  match Arguments.parse list with
  | .error _ => []
  | .ok arguments =>
    (arguments.config.toList ++ arguments.positional).flatMap fun argument =>
      placesOfPath cwd (FilePath.ofText argument)

/-- The places on the way to the files that a run is about to write. -/
def placesOfOutput (env : Environment) (fs : FileSystem) (list : List Text) : List Location :=
  let output : Except Ending (Job × Output) := do
    let arguments ← (Arguments.parse list).mapError .usage
    let job ← prepare fs arguments
    let options ← (readOptions fs job).mapError .failure
    let output ← (generate env fs options job.source).1.mapError .failure
    return (job, output)
  match output with
  | .error _ => []
  | .ok (job, output) =>
    output.files.flatMap fun file =>
      placesOfPath fs.cwd ((absolutePath job.output).join file.name)

/-! ## Changes -/

/-- What has to be done at a place. -/
inductive Change where
  | makeDirectory
  | writeFile (bytes : List UInt8)
  deriving DecidableEq, Repr, Inhabited

/-- Whether a node is the file with the given bytes. -/
def isFile (bytes : List UInt8) : Node → Bool
  | .file old => old == bytes
  | .directory _ => false

/-- The entries of a directory; a file has none. -/
def entriesOf : Node → List (Text × Node)
  | .file _ => []
  | .directory entries => entries

mutual

/-- What has to be done so that a node stands at a place instead of the one before, a directory
before what is in it. -/
def changesAt (place : Location) (before : Option Node) : Node → List (Location × Change)
  | .file bytes =>
    if before.any (isFile bytes) then [] else [(place, .writeFile bytes)]
  | .directory entries =>
    (if before.any Node.isDirectory then [] else [(place, .makeDirectory)]) ++
      changesIn place ((before.map entriesOf).getD []) entries

/-- What has to be done so that the directory at a place has the given entries. -/
def changesIn (place : Location) (before : List (Text × Node)) :
    List (Text × Node) → List (Location × Change)
  | [] => []
  | (name, node) :: rest =>
    changesAt (place ++ [name]) (Entries.get? before name) node ++ changesIn place before rest

end

/-- What has to be done so that the first file system becomes the second. Nothing is ever taken
away. -/
def changes (before after : FileSystem) : List (Location × Change) :=
  changesAt [] (some before.root) after.root

end SchemaScribe.CommandLine
