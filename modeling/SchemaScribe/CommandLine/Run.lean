import SchemaScribe.CommandLine.Arguments
import SchemaScribe.FileSystem.Writer
import SchemaScribe.Source.Load
import SchemaScribe.Text.Terminal

/-!
# A run of the command

`CommandLine.run` reads the configuration, loads the schema, compiles it and writes the files.
Each of these steps is reached only when the one before succeeds, so nothing is written unless
the whole schema was compiled. What went wrong is either reported, on a line of its own, or it
escapes: the run is cut short, and its end tells the cause.
-/

namespace SchemaScribe.CommandLine

/-- Why a configuration file is refused. -/
inductive ConfigError where
  | document (e : DocumentError)
  | options (e : OptionsError)
  deriving DecidableEq, Repr, Inhabited

/-- The text of an error in the configuration file at a path. -/
def ConfigError.message (path : Text) : ConfigError → String
  | .document (.access (.unusable e)) => e.message
  | .document (.access (.refused fault)) => fault.message path
  | .document (.notUtf8 e) => e.message
  | .document (.notJson (.malformed e)) => e.message
  | .document (.notJson (.excess e)) => e.message
  | .options e => e.message

/-- Why a run fails once its arguments are accepted. -/
inductive Failure where
  | config (path : Text) (e : ConfigError)
  | load (e : LoadError)
  | compile (e : CompileError)
  | write (e : WriteError)
  /-- The system cannot be asked for the path of an argument. -/
  | unusable (e : PathError)
  deriving DecidableEq, Repr, Inhabited

namespace Failure

/-- Whether a run reports the failure; else the failure escapes. -/
def isReported : Failure → Bool
  | .config _ (.options (.notAnObject _))
  | .config _ (.document (.notJson (.excess (.nesting _)))) => false
  | .config _ _ => true
  | .load (.address _) | .load (.unusable _) | .load (.notUtf8 _) | .load (.excess _)
  | .load (.schema (.noElements _)) => false
  | .load _ => true
  | .compile (.reference (.notAName _)) => false
  | .compile (.reference _) | .compile (.duplicate ..) | .compile (.collision ..)
  | .compile (.rule (.noTable ..)) => true
  | .compile _ => false
  | .write (.unusable _) | .write (.encoding _) | .write .tooDeep => false
  | .write _ => true
  | .unusable _ => false

/-- The text of a failure. String tables are looked for in the given folder. -/
def message (folder : Text) : Failure → Text
  | .config path e =>
    if (Failure.config path e).isReported then
      "Invalid config file " ++ path ++ ": " ++ e.message path
    else e.message path
  | .load e => e.message
  | .compile e => e.message folder
  | .write e => e.message
  | .unusable e => e.message

end Failure

/-- What a run needs of the world besides its files. -/
structure Environment where
  /-- Makes the request for a web address. -/
  fetch : Text → Fetched
  /-- Makes the names of temporary files unique. -/
  token : Text
  /-- Where string tables are looked for. -/
  folder : Text

/-- The end of a run. -/
inductive Ending where
  | success
  | help
  | usage (e : UsageError)
  | failure (e : Failure)
  deriving DecidableEq, Repr, Inhabited

/-- What a run leaves behind besides its files: its notices, whether all of them are shown, and
how it ended. -/
structure Report where
  verbose : Bool
  notices : List Notice
  ending : Ending
  deriving Repr, Inhabited

namespace Report

/-- The exit status of a run. -/
def exitCode (report : Report) : Nat :=
  match report.ending with
  | .success | .help => 0
  | .failure _ => 1
  | .usage _ => 2

/-- The failure that escapes a run, if one does. -/
def escaped? (report : Report) : Option Failure :=
  match report.ending with
  | .failure e => if e.isReported then none else some e
  | _ => none

/-- The notices that are shown. -/
def shown (report : Report) : List Notice :=
  report.notices.filter fun notice => report.verbose || notice.level != .debug

/-- What is told about how a run ended, if there is anything to tell. -/
def verdict? (folder : Text) (report : Report) : Option Text :=
  match report.ending with
  | .success | .help => none
  | .usage e => some e.message
  | .failure e => if e.isReported then some (e.message folder) else none

/-- What a run writes to its error stream: its notices, and the line of the verdict. -/
def stderr (folder : Text) (report : Report) : String :=
  let verdict := (report.verdict? folder).map fun told => Text.withoutStyles ("Error: " ++ told)
  Text.shown (Text.withLineEnds (report.shown.map Notice.line ++ verdict.toList))

end Report

/-! ## The steps of a run -/

/-- The levels to which containers may be nested in a configuration file. -/
def configLevels : Nat := 985

/-- The levels to which containers may be nested in a schema document. -/
def schemaLevels : Nat := 983

/-- What writes the files of a run. -/
def Environment.writer (env : Environment) : Writer := { token := env.token, maxMissing := 984 }

/-- The paths that a run works with. -/
structure Job where
  config : Option Path.Location
  annotations : Option Bool
  source : Text
  output : Path.Location
  deriving DecidableEq, Repr, Inhabited

/-- The path from the root to a place. -/
def absolutePath (place : Path.Location) : FilePath := ⟨.root, place⟩

/-- Asks the system for one name of a path after the other, behind the names on the `trail`. The
name `..` takes the last name off again. -/
def askAlong (anchor : Anchor) (trail : List Text) : List Text → Except PathError Unit
  | [] => .ok ()
  | name :: rest =>
    if name ≠ ".." then do
      let _ ← (⟨anchor, trail ++ [name]⟩ : FilePath).bytes
      askAlong anchor (trail ++ [name]) rest
    else if trail ≠ [] ∧ trail.getLast? ≠ some name then askAlong anchor trail.dropLast rest
    else askAlong anchor (if anchor = .here then trail ++ [name] else trail) rest

/-- The place that an argument names. -/
def locate (fs : FileSystem) (argument : Text) : Except Ending Path.Location := do
  let path := FilePath.ofText argument
  let anchor : Anchor := if path.anchor = .here then .here else .root
  (askAlong anchor [] path.parts).mapError fun e => .failure (.unusable e)
  return path.location fs.cwd

/-- Checks the configuration file, if one is given: something has to be there. -/
def checkConfig (fs : FileSystem) : Option Text → Except Ending (Option Path.Location)
  | none => .ok none
  | some argument => do
    let place ← locate fs argument
    match fs.find (absolutePath place) with
    | .ok _ => return some place
    | .error _ => .error (.usage (.noConfig argument))

/-- Checks the output folder: no file may be there. -/
def checkOutput (fs : FileSystem) (argument : Text) : Except Ending Path.Location := do
  let place ← locate fs argument
  match fs.find (absolutePath place) with
  | .ok (.file _) => .error (.usage (.outputIsFile argument))
  | _ => return place

/-- Checks the arguments: the configuration file first, then the source and the output folder,
and last that there are no others. -/
def prepare (fs : FileSystem) (arguments : Arguments) : Except Ending Job := do
  if arguments.help then .error .help
  let config ← checkConfig fs arguments.config
  match arguments.positional with
  | [] => .error (.usage (.missing "SOURCE"))
  | [_] => .error (.usage (.missing "OUTPUT"))
  | source :: output :: rest =>
    let output ← checkOutput fs output
    if rest.isEmpty then return ⟨config, arguments.annotations, source, output⟩
    else .error (.usage (.unexpected rest))

/-- Reads the options of a run. -/
def readOptions (fs : FileSystem) (job : Job) : Except Failure Options := do
  let options ← match job.config with
    | none => .ok {}
    | some place =>
      let path := absolutePath place
      let document ← (fs.readJson configLevels path).mapError fun e =>
        .config path.toText (.document e)
      (Options.ofJson document).mapError fun e => .config path.toText (.options e)
  match job.annotations with
  | none => return options
  | some true => return { options with style := .decorated }
  | some false => return { options with style := .plain }

/-- Loads and compiles the schema of a job. -/
def generate (env : Environment) (fs : FileSystem) (options : Options) (source : Text) :
    Except Failure Output × List Notice :=
  match Schema.load schemaLevels fs env.fetch source with
  | (.error e, notices) => (.error (.load e), notices)
  | (.ok schema, notices) =>
    let (result, more) := schema.compile fs.cwd options
    (result.mapError .compile, notices ++ more)

/-- Does a job. -/
def perform (env : Environment) (fs : FileSystem) (job : Job) :
    Except Failure Unit × List Notice × FileSystem :=
  match readOptions fs job with
  | .error e => (.error e, [], fs)
  | .ok options =>
    match generate env fs options job.source with
    | (.error e, notices) => (.error e, notices, fs)
    | (.ok output, notices) =>
      let (result, more, fs) :=
        env.writer.writeAll options.output fs output (absolutePath job.output)
      match result with
      | .ok _ => (.ok (), notices ++ more, fs)
      | .error e => (.error (.write e), notices ++ more, fs)

/-- Runs the command with the given arguments. -/
def run (env : Environment) (fs : FileSystem) (list : List Text) : Report × FileSystem :=
  match Arguments.parse list with
  | .error e => (⟨false, [], .usage e⟩, fs)
  | .ok arguments =>
    match prepare fs arguments with
    | .error ending => (⟨arguments.verbose, [], ending⟩, fs)
    | .ok job =>
      match perform env fs job with
      | (.ok (), notices, fs) => (⟨arguments.verbose, notices, .success⟩, fs)
      | (.error e, notices, fs) => (⟨arguments.verbose, notices, .failure e⟩, fs)

end SchemaScribe.CommandLine
