import SchemaScribe.Options
import SchemaScribe.Path.Basic
import SchemaScribe.Schema.Basic

/-!
# Where models go

The paths of the generated files and how the modules in them refer to each other. The module of
an item is named by the output root, the folder of its kind and its own name; parts that do not
count as true are left out. The options that name these parts may be any values, so each path may
fail to exist.
-/

namespace SchemaScribe

/-- Why an item has no path. -/
inductive LayoutError where
  /-- All parts of the path are left out. -/
  | noParts
  /-- The first part of the path is no text. -/
  | firstNotText (typeName : String)
  /-- A later part of the path is no text. -/
  | laterNotText (typeName : String)
  | extensionNotText (typeName : String)
  deriving DecidableEq, Repr, Inhabited

/-- The text of an error. -/
def LayoutError.message : LayoutError → String
  | .noParts => "join() missing 1 required positional argument: 'a'"
  | .firstNotText typeName =>
    "expected str, bytes or os.PathLike object, not " ++ typeName
  | .laterNotText typeName =>
    "join() argument must be str, bytes, or os.PathLike object, not '" ++ typeName ++ "'"
  | .extensionNotText typeName =>
    "can only concatenate str (not \"" ++ typeName ++ "\") to str"

namespace Layout

/-- Joins further parts to a path. -/
def joinOnto (path : Text) : List Json → Except LayoutError Text
  | [] => .ok path
  | .text part :: rest => joinOnto (Path.join path part) rest
  | part :: _ => .error (.laterNotText part.typeName)

/-- The path made of the parts. -/
def joinParts : List Json → Except LayoutError Text
  | [] => .error .noParts
  | .text part :: rest => joinOnto part rest
  | part :: _ => .error (.firstNotText part.typeName)

end Layout

namespace Options

/-- The folder of a kind of items. -/
def folder (options : Options) : ItemKind → Json
  | .table => options.tableFolder
  | .enumeration => options.enumFolder

/-- The path of an item's module: that of its file without the extension. -/
def modulePath (options : Options) (kind : ItemKind) (name : Name) :
    Except LayoutError Text :=
  Layout.joinParts ([options.outputRoot, options.folder kind, name].filter Json.isTruthy)

/-- The path of an item's file. -/
def fileName (options : Options) (kind : ItemKind) (name : Name) :
    Except LayoutError Text := do
  let path ← options.modulePath kind name
  match options.fileExtension with
  | .text extension => return path ++ extension
  | x => .error (.extensionNotText x.typeName)

/-- The path by which a module in the directory of `source` refers to the module at `target`: a
relative path that starts with a dot. -/
def specifier (cwd : Path.Location) (source target : Text) : Text :=
  let directory := Path.directory source
  let relative := Path.relative cwd target (if directory = "" then "." else directory)
  if relative.head? == some (.scalar '.') then relative else "./" ++ relative

/-- The path by which the module of one item refers to that of another. -/
def importPath (cwd : Path.Location) (options : Options) (fromKind : ItemKind)
    (fromName : Name) (kind : ItemKind) (name : Name) : Except LayoutError Text := do
  let source ← options.modulePath fromKind fromName
  let target ← options.modulePath kind name
  return specifier cwd source target

end Options

end SchemaScribe
