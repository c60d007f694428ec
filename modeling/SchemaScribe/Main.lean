import SchemaScribe.CommandLine.Places

/-!
# The command

Looks up the places that a run depends on, lets `CommandLine.run` decide, and does what it left
to be done. The command has no access to the network.
-/

namespace SchemaScribe.CommandLine

open SchemaScribe.Path (Location)

/-- The text that explains how the command is called. -/
def usage : String :=
  "Usage: schemascribe [OPTIONS] SOURCE OUTPUT\n"

/-- The explanation of the arguments and options. -/
def explanation : String :=
  usage ++ "\n" ++
    "  Writes the TypeScript modules of the schema at SOURCE, a path or a web address, below\n" ++
    "  the folder OUTPUT.\n\n" ++
    "Options:\n" ++
    "  -c, --config PATH                 Read options from a file.\n" ++
    "  --annotations / --no-annotations  Write decorated classes or plain interfaces.\n" ++
    "  -v, --verbose                     Show every notice.\n" ++
    "  --help                            Show this message and exit.\n"

/-- The token of a run that starts at the given time: eight digits. -/
def freshToken (time : Nat) : Text := Text.decimal (10000000 + time % 90000000)

/-- What the system has at a place. Nothing can be there when the place has no name for it. -/
def lookUp (place : Location) : IO (Option Node) := do
  match (Path.ofLocation place).toString? with
  | none => return none
  | some path =>
    try
      let bytes ← IO.FS.readBinFile path
      return some (.file bytes.toList)
    catch
      | .inappropriateType _ code _ => return if code = 21 then some (.directory []) else none
      | _ => return none

/-- Adds what the system has at the places, each behind those above it. -/
def observe (fs : FileSystem) (places : List Location) : IO FileSystem :=
  places.foldlM (fun fs place => do
    if (fs.get? place).isSome then return fs
    match ← lookUp place with
    | some node => return fs.put place node
    | none => return fs) fs

/-- Makes a change; a file appears at its place all at once. -/
def install (token : Text) (place : Location) (change : Change) : IO Unit := do
  let temporary :=
    place.dropLast ++ [Writer.temporaryName token (place.getLast?.getD [])]
  match (Path.ofLocation place).toString?, (Path.ofLocation temporary).toString?, change with
  | some path, _, .makeDirectory => IO.FS.createDir path
  | some path, some temporary, .writeFile bytes =>
    IO.FS.writeBinFile temporary ⟨bytes.toArray⟩
    IO.FS.rename temporary path
  | _, _, _ => throw (IO.userError "a name that the system does not have")

end SchemaScribe.CommandLine

open SchemaScribe CommandLine in
/-- Runs the command. -/
def main (arguments : List String) : IO UInt32 := do
  let arguments := arguments.map Text.ofString
  let cwd := Path.absolute [] (toString (← IO.currentDir))
  let env : Environment := {
    fetch := fun _ => .error "the network is not available"
    token := freshToken (← IO.monoNanosNow)
    folder := "" }
  let fs ← observe { cwd } (placesOfArguments cwd arguments)
  let fs ← observe fs (placesOfOutput env fs arguments)
  let (report, after) := run env fs arguments
  for (place, change) in changes fs after do
    install env.token place change
  match report.ending with
  | .help => IO.print explanation
  | .usage _ => IO.eprint usage
  | _ => pure ()
  IO.eprint (report.stderr env.folder)
  if let some failure := report.escaped? then
    IO.eprintln (Text.shown (failure.message env.folder))
  return UInt32.ofNat report.exitCode
