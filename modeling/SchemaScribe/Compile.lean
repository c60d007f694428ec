import SchemaScribe.Layout
import SchemaScribe.Model.TypeScript
import SchemaScribe.Notice

/-!
# Compiling a schema

`Schema.compile` turns the items of a schema into files, one for each, in the order of the items.
The first item that cannot be compiled decides the error, and then there is no output; the
notices are those of the items before it.

Two items of different kinds may not have the same file. Of several items of one kind and name
the last one wins, if the options allow them at all.
-/

namespace SchemaScribe

/-- A generated file: its path below the output folder, and its text. -/
structure ModuleFile where
  name : Text
  content : Text
  deriving DecidableEq, Repr, Inhabited

/-- An item and its file: the name as it was first written, and the path of the file. -/
structure NamedPath where
  name : Name
  path : Text
  deriving DecidableEq, Repr, Inhabited

/-- The files of one kind of items, and the file of each item by the key of its name. -/
structure Bucket where
  files : List ModuleFile := []
  paths : Entries NamedPath Json := []
  deriving DecidableEq, Repr, Inhabited

namespace Bucket

/-- The path of the file of an item. -/
def path? (bucket : Bucket) (name : Name) : Option Text :=
  (bucket.paths.get? name.key).map NamedPath.path

/-- Sets the path of the file of an item; a name that is there stays as it is written. -/
def putPath (bucket : Bucket) (named : NamedPath) : Bucket :=
  let name := ((bucket.paths.get? named.name.key).map NamedPath.name).getD named.name
  { bucket with paths := bucket.paths.put named.name.key ⟨name, named.path⟩ }

/-- Adds files, and the paths of the files of items, in order. -/
def extend (bucket : Bucket) (files : List ModuleFile) (paths : List NamedPath) : Bucket :=
  paths.foldl putPath { bucket with files := bucket.files ++ files }

end Bucket

/-- The result of a compilation. -/
structure Output where
  tables : Bucket := {}
  enumerations : Bucket := {}
  deriving DecidableEq, Repr, Inhabited

namespace Output

/-- All files, in the order in which they are written: enumerations, then tables. -/
def files (output : Output) : List ModuleFile :=
  output.enumerations.files ++ output.tables.files

/-- The files of a kind. -/
def bucket (output : Output) : ItemKind → Bucket
  | .table => output.tables
  | .enumeration => output.enumerations

/-- The output with another bucket for a kind. -/
def setBucket (output : Output) (bucket : Bucket) : ItemKind → Output
  | .table => { output with tables := bucket }
  | .enumeration => { output with enumerations := bucket }

end Output

/-- Why a schema is not compiled. -/
inductive CompileError where
  | unsupportedLanguage (name : Name)
  | reference (e : ReferenceError)
  | rule (e : RuleError)
  | layout (e : LayoutError)
  | notAnItem (value : Json)
  /-- The members of an enumeration are given by a value that has no elements. -/
  | noMembers (typeName : String)
  | duplicate (kind : ItemKind) (name : Name)
  /-- Two items of different kinds have the same file. -/
  | collision (file : Text) (firstKind : ItemKind) (firstName : Name)
    (secondKind : ItemKind) (secondName : Name)
  deriving DecidableEq, Repr, Inhabited

/-- The text of an error. String tables are looked for in the given folder. -/
def CompileError.message (folder : Text) : CompileError → Text
  | .unsupportedLanguage name => "Unsupported language: " ++ name.toText
  | .reference e => e.message
  | .rule e => e.message folder
  | .layout e => e.message
  | .notAnItem x => "Unsupported schema item: " ++ x.display
  | .noMembers typeName => "'" ++ typeName ++ "' object is not iterable"
  | .duplicate kind name => "Duplicate " ++ kind.name ++ " name \"" ++ name.toText ++ "\""
  | .collision file firstKind firstName secondKind secondName =>
    firstKind.name ++ " \"" ++ firstName.toText ++ "\" and " ++ secondKind.name ++ " \"" ++
      secondName.toText ++ "\" would both be written to \"" ++ file ++ "\""

/-- A language that models can be written in. -/
inductive Language where
  | typeScript
  deriving DecidableEq, Repr, Inhabited

/-- The language of a name. -/
def Language.ofName (name : Name) : Except CompileError Language :=
  if name.isCompound then .error (.reference (.notAName name.typeName))
  else if name = .text "typescript" then .ok .typeScript
  else .error (.unsupportedLanguage name)

namespace Schema

/-! ## The file of an item -/

/-- The items that fields refer to, each once, in the order of the first reference. Those `seen`
before, each given by its kind and the key of its name, are left out. -/
def imported (seen : List (ItemKind × Json)) : List Field → List (ItemKind × Name)
  | [] => []
  | field :: rest =>
    match field.type.item? with
    | none => imported seen rest
    | some (kind, name) =>
      if (kind, name.key) ∈ seen then imported seen rest
      else (kind, name) :: imported ((kind, name.key) :: seen) rest

/-- The import lines for the given items in the model of a table. -/
def importLines (cwd : Path.Location) (options : Options) (table : Name) :
    List (ItemKind × Name) → Except LayoutError (List Text)
  | [] => .ok []
  | (kind, name) :: rest => do
    let path ← options.importPath cwd .table table kind name
    let tail ← importLines cwd options table rest
    return TypeScript.importLine name path :: tail

/-- The file of a table. -/
def tableFile (cwd : Path.Location) (options : Options) (schema : Schema) (table : Table) :
    Except CompileError ModuleFile := do
  let fields ← (schema.fieldsOfTable options table).mapError .reference
  let body ← (TypeScript.bodyLines options.annotated fields).mapError .rule
  if table.name.isCompound then
    .error (.reference (.notAName table.name.typeName))
  let imports ← (importLines cwd options table.name
    (imported [(.table, table.name.key)] fields)).mapError .layout
  let name ← (options.fileName .table table.name).mapError .layout
  return ⟨name,
    TypeScript.tableText options.annotated options.indent.toText imports table.name body⟩

/-- The file of an enumeration. -/
def enumerationFile (options : Options) (e : Enumeration) :
    Except CompileError ModuleFile := do
  match e.members.elements? with
  | none => .error (.noMembers e.members.typeName)
  | some members =>
    let name ← (options.fileName .enumeration e.name).mapError .layout
    return ⟨name, TypeScript.enumerationText options.indent.toText e.name members⟩

/-- The kind, name and file of an item. -/
def build (cwd : Path.Location) (options : Options) (schema : Schema) :
    Item → Except CompileError (ItemKind × Name × ModuleFile)
  | .table t => do return (.table, t.name, ← schema.tableFile cwd options t)
  | .enumeration e => do return (.enumeration, e.name, ← enumerationFile options e)
  | .other x => .error (.notAnItem x)

/-- Builds one item by itself: a bucket with its file, and the notice that it was generated. -/
def buildBucket (cwd : Path.Location) (options : Options) (schema : Schema) (item : Item) :
    Except CompileError Bucket × List Notice :=
  match schema.build cwd options item with
  | .error e => (.error e, [])
  | .ok (kind, name, file) =>
    let bucket : Except CompileError Bucket :=
      if name.isCompound then .error (.reference (.notAName name.typeName))
      else .ok (Bucket.extend {} [file] [⟨name, file.name⟩])
    (bucket, [.generated kind name file.name])

/-! ## All items -/

/-- How far a compilation has come: the output so far, and for each file the item that was
first compiled to it. -/
structure Progress where
  output : Output := {}
  owners : Entries (ItemKind × Name) := []
  deriving Repr, Inhabited

/-- Puts the file of an item into its bucket. -/
def Progress.putFile (options : Options) (progress : Progress) (kind : ItemKind) (name : Name)
    (file : ModuleFile) : Except CompileError Progress × List Notice :=
  let bucket := progress.output.bucket kind
  let withFile (bucket : Bucket) : Progress :=
    let bucket := bucket.extend [file] [⟨name, file.name⟩]
    { progress with output := progress.output.setBucket bucket kind }
  match bucket.path? name with
  | none => (.ok (withFile bucket), [])
  | some path =>
    if !options.allowDuplicates.isTruthy then (.error (.duplicate kind name), [])
    else
      (.ok (withFile { bucket with files := bucket.files.filter (·.name ≠ path) }),
        [.duplicate kind name path])

/-- Adds the file of an item, unless an item of the other kind has the same file. -/
def Progress.add (options : Options) (progress : Progress) (kind : ItemKind) (name : Name)
    (file : ModuleFile) : Except CompileError Progress × List Notice :=
  match progress.owners.get? file.name with
  | none =>
    Progress.putFile options
      { progress with owners := progress.owners.put file.name (kind, name) } kind name file
  | some (firstKind, firstName) =>
    if firstKind ≠ kind then (.error (.collision file.name firstKind firstName kind name), [])
    else progress.putFile options kind name file

/-- Compiles one item. -/
def Progress.step (cwd : Path.Location) (options : Options) (schema : Schema)
    (progress : Progress) (item : Item) : Except CompileError Progress × List Notice :=
  match schema.build cwd options item with
  | .error e => (.error e, [])
  | .ok (kind, name, file) =>
    let (result, notices) := progress.add options kind name file
    (result, .generated kind name file.name :: notices)

/-- Compiles items one after the other, up to the first that fails. -/
def Progress.run (cwd : Path.Location) (options : Options) (schema : Schema) :
    Progress → List Item → Except CompileError Progress × List Notice
  | progress, [] => (.ok progress, [])
  | progress, item :: rest =>
    match progress.step cwd options schema item with
    | (.error e, notices) => (.error e, notices)
    | (.ok next, notices) =>
      let (result, more) := run cwd options schema next rest
      (result, notices ++ more)

/-- Compiles a schema. -/
def compile (cwd : Path.Location) (options : Options) (schema : Schema) :
    Except CompileError Output × List Notice :=
  match schema.checkNames with
  | .error e => (.error (.reference e), [])
  | .ok () =>
    match Progress.run cwd options schema {} schema with
    | (.error e, notices) => (.error e, notices)
    | (.ok progress, notices) =>
      (.ok progress.output, notices ++
        [.compiled progress.output.tables.files.length
          progress.output.enumerations.files.length])

end Schema

end SchemaScribe
