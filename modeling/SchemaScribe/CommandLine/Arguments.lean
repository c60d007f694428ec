import SchemaScribe.Path.File
import SchemaScribe.Text.Joined
import SchemaScribe.Text.Quoted
import SchemaScribe.Text.Similarity

/-!
# Arguments of the command

`Arguments.parse` takes an argument list apart into options and positional arguments. Options
may follow positional arguments, the value of `-c` may be written right behind it and that of
`--config` behind an equals sign, one-letter options may share a dash, and `--` ends the options.
Of an option given several times the last one counts. An option that there is not is refused with
the names that are most like it.
-/

namespace SchemaScribe

/-- Why an argument list is refused. -/
inductive UsageError where
  | missing (argument : String)
  | unexpected (arguments : List Text)
  /-- There is no such option; these are like it. -/
  | noSuchOption (name : Text) (similar : List String)
  | noValue (name : String)
  | takesNoValue (name : Text)
  | noConfig (path : Text)
  | outputIsFile (path : Text)
  deriving DecidableEq, Repr, Inhabited

namespace UsageError

/-- A path as errors show it: bytes that are no UTF-8 are shown by the replacement character. -/
def shownPath (path : Text) : Text :=
  match FilePath.encode path with
  | .ok bytes => Utf8.decodeLossy bytes
  | .error _ => path

/-- The names that may have been meant. -/
def suggestion : List String → Text
  | [] => []
  | [name] => " Did you mean " ++ Text.quoted name ++ "?"
  | names =>
    " (Did you mean one of: " ++
      Text.joined ", " ((names.mergeSort (· ≤ ·)).map fun (name : String) => Text.quoted name) ++
        "?)"

/-- The text of an error. -/
def message : UsageError → Text
  | .missing argument => "Missing argument '" ++ argument ++ "'."
  | .unexpected arguments =>
    "Got unexpected extra argument" ++ (if arguments.length = 1 then "" else "s") ++ " (" ++
      Text.joined " " arguments ++ ")"
  | .noSuchOption name similar => "No such option " ++ Text.quoted name ++ "." ++ suggestion similar
  | .noValue name => "Option " ++ Text.quoted name ++ " requires an argument."
  | .takesNoValue name => "Option " ++ Text.quoted name ++ " does not take a value."
  | .noConfig path =>
    "Invalid value for '--config' / '-c': Path " ++ Text.quoted (shownPath path) ++
      " does not exist."
  | .outputIsFile path =>
    "Invalid value for 'OUTPUT': Directory " ++ Text.quoted (shownPath path) ++ " is a file."

end UsageError

/-- The options and positional arguments of a command. -/
structure Arguments where
  config : Option Text := none
  annotations : Option Bool := none
  verbose : Bool := false
  help : Bool := false
  positional : List Text := []
  deriving DecidableEq, Repr, Inhabited

namespace Arguments

/-- The names of the long options. -/
def longOptions : List String :=
  ["--config", "--annotations", "--no-annotations", "--verbose", "--help"]

/-- Refuses a long option: at most three names are suggested. -/
def noLongOption (name : Text) : UsageError :=
  .noSuchOption name (Text.similar 3 name longOptions)

/-- Sets an option that has no value; `none` when there is no such option. -/
def setFlag (arguments : Arguments) (name : Text) : Option Arguments :=
  match name.toString? with
  | some "--annotations" => some { arguments with annotations := some true }
  | some "--no-annotations" => some { arguments with annotations := some false }
  | some "--verbose" | some "-v" => some { arguments with verbose := true }
  | some "--help" => some { arguments with help := true }
  | _ => none

/-- The character that options start with. -/
def dash : CodePoint := .scalar '-'

/-- The name and the value of a long option, the value behind the first equals sign. -/
def splitLong (option : Text) : Text × Option Text :=
  (option.takeWhile (· ≠ .scalar '='), (option.dropWhile (· ≠ .scalar '=')).tail?)

/-- Reads the letters behind one dash. An option with a value takes the letters behind it, or
else the next argument; the answer holds the arguments that are left. -/
def letters (arguments : Arguments) (next : List Text) :
    Text → Except UsageError (Arguments × List Text)
  | [] => .ok (arguments, next)
  | x :: rest =>
    if x = .scalar 'c' then
      match rest, next with
      | [], [] => .error (.noValue "-c")
      | [], value :: next => .ok ({ arguments with config := some value }, next)
      | _ :: _, _ => .ok ({ arguments with config := some rest }, next)
    else
      match arguments.setFlag [dash, x] with
      | some arguments => letters arguments next rest
      | none => .error (.noSuchOption [dash, x] [])

/-- Reads an option. -/
def option (arguments : Arguments) (text : Text) (next : List Text) :
    Except UsageError (Arguments × List Text) :=
  let (name, value) := splitLong text
  if name = "--config" then
    match value, next with
    | some value, _ => .ok ({ arguments with config := some value }, next)
    | none, value :: next => .ok ({ arguments with config := some value }, next)
    | none, [] => .error (.noValue "--config")
  else if name = "-v" then letters arguments next text.tail
  else match arguments.setFlag name, value with
    | some arguments, none => .ok (arguments, next)
    | some _, some _ => .error (.takesNoValue name)
    | none, _ =>
      if text.tail.head? = some dash then .error (noLongOption name)
      else letters arguments next text.tail

/-- Reads the arguments that are left; `fuel` bounds their number. -/
def parseFrom : (fuel : Nat) → Arguments → List Text → Except UsageError Arguments
  | 0, arguments, _ => .ok arguments
  | _, arguments, [] => .ok arguments
  | fuel + 1, arguments, argument :: next =>
    if argument = "--" then .ok { arguments with positional := arguments.positional ++ next }
    else if argument.head? = some dash ∧ 2 ≤ argument.length then do
      let (arguments, next) ← arguments.option argument next
      parseFrom fuel arguments next
    else
      parseFrom fuel { arguments with positional := arguments.positional ++ [argument] } next

/-- Reads an argument list. -/
def parse (list : List Text) : Except UsageError Arguments :=
  parseFrom (list.length + 1) {} list

end Arguments

end SchemaScribe
