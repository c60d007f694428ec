import SchemaScribe.Json.Display

/-!
# Options

The options of a compilation run and how they are read from a configuration document.

`Options.ofJson` reads the members of an object one after the other. The style of models and the
options of output are the only ones whose values are checked; all others are kept as they come
and given a meaning where they are used. A member that is no option is passed over.
`Options.toJson` writes all options.
-/

namespace SchemaScribe

/-- Whether table models are decorated classes or plain interfaces. -/
inductive ModelStyle where
  | decorated
  | plain
  deriving DecidableEq, Repr, Inhabited

/-- What happens when a file is in the way. -/
inductive ConflictMode where
  /-- The file is overwritten. -/
  | overwrite
  /-- It is an error, and the file stays. -/
  | refuse
  deriving DecidableEq, Repr, Inhabited

/-- The word for a style. -/
def ModelStyle.word : ModelStyle → String
  | .decorated => "on"
  | .plain => "off"

/-- The word for a mode. -/
def ConflictMode.word : ConflictMode → String
  | .overwrite => "force"
  | .refuse => "error"

/-- How files are written. -/
structure OutputOptions where
  mode : ConflictMode := .overwrite
  /-- Whether a file is written aside and moved into place: any value, by its truth. -/
  atomic : Json := .bool true
  deriving DecidableEq, Repr, Inhabited

/-- The options of a run. -/
structure Options where
  style : ModelStyle := .decorated
  /-- The leading segment of the path of every generated file. -/
  outputRoot : Json := .text "ts-model"
  tableFolder : Json := .text "table"
  enumFolder : Json := .text "enum"
  fileExtension : Json := .text ".ts"
  /-- What goes before the name of a relation column to name the reference to the row itself. -/
  relationPrefix : Json := .text "otm_"
  indent : Json := .text "  "
  /-- Whether the last of several items of a kind and name wins: any value, by its truth. -/
  allowDuplicates : Json := .bool false
  output : OutputOptions := {}
  deriving DecidableEq, Repr, Inhabited

/-- Why a configuration is refused. -/
inductive OptionsError where
  | notAnObject (typeName : String)
  | badStyle (value : Json)
  | badMode (value : Json)
  | outputNotAnObject (value : Json)
  deriving DecidableEq, Repr, Inhabited

/-- The text of an error. -/
def OptionsError.message : OptionsError → String
  | .notAnObject typeName => "'" ++ typeName ++ "' object has no attribute 'items'"
  | .badStyle x => x.display ++ " is not a valid AnnotationMode"
  | .badMode x => x.display ++ " is not a valid OutputMode"
  | .outputNotAnObject x => "output must be an object, got " ++ x.display

/-- The style that a value stands for: its word, or a Boolean. -/
def ModelStyle.ofJson : Json → Except OptionsError ModelStyle
  | .bool true => .ok .decorated
  | .bool false => .ok .plain
  | x =>
    if x = .text "on" then .ok .decorated
    else if x = .text "off" then .ok .plain
    else .error (.badStyle x)

/-- The mode of a word. -/
def ConflictMode.ofJson (x : Json) : Except OptionsError ConflictMode :=
  if x = .text "force" then .ok .overwrite
  else if x = .text "error" then .ok .refuse
  else .error (.badMode x)

/-- Reads the options of an output object; what it does not give has its default. -/
def OutputOptions.ofJson : Json → Except OptionsError OutputOptions
  | .object members => do
    let mode ← match Json.member? members "mode" with
      | some x => ConflictMode.ofJson x
      | none => .ok .overwrite
    return { mode, atomic := (Json.member? members "atomic_write").getD (.bool true) }
  | x => .error (.outputNotAnObject x)

namespace Options

/-- Whether models are decorated classes. -/
def annotated (options : Options) : Bool := options.style == .decorated

/-- Sets the option of a name. -/
def set (options : Options) (name : Text) (value : Json) : Except OptionsError Options :=
  match name.toString? with
  | some "annotation_mode" => do return { options with style := ← ModelStyle.ofJson value }
  | some "output" => do return { options with output := ← OutputOptions.ofJson value }
  | some "output_root" => .ok { options with outputRoot := value }
  | some "table_folder" => .ok { options with tableFolder := value }
  | some "enum_folder" => .ok { options with enumFolder := value }
  | some "file_extension" => .ok { options with fileExtension := value }
  | some "relation_field_prefix" => .ok { options with relationPrefix := value }
  | some "indent" => .ok { options with indent := value }
  | some "allow_duplicate_names" => .ok { options with allowDuplicates := value }
  | _ => .ok options

/-- Sets the options that the members give, one after the other. -/
def setAll (options : Options) : List (Text × Json) → Except OptionsError Options
  | [] => .ok options
  | (name, value) :: rest => do setAll (← options.set name value) rest

/-- Reads the options of a configuration document. -/
def ofJson : Json → Except OptionsError Options
  | .object members => setAll {} members
  | x => .error (.notAnObject x.typeName)

/-- All options as a configuration document. -/
def toJson (options : Options) : Json :=
  .object
    [("annotation_mode", .text options.style.word),
      ("output_root", options.outputRoot),
      ("table_folder", options.tableFolder),
      ("enum_folder", options.enumFolder),
      ("file_extension", options.fileExtension),
      ("relation_field_prefix", options.relationPrefix),
      ("indent", options.indent),
      ("allow_duplicate_names", options.allowDuplicates),
      ("output", .object
        [("mode", .text options.output.mode.word), ("atomic_write", options.output.atomic)])]

end Options

end SchemaScribe
