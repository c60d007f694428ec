import SchemaScribe.FileSystem.Fault
import SchemaScribe.Path.File
import SchemaScribe.Rule.Strings
import SchemaScribe.Schema.Basic

/-!
# Validation rules

A rule says how the input for one field is checked. It is rendered as the decorators of the
field: the transform that turns the input into a value, if the check has one, and the validator
with the message it reports. All wording comes from a string table, chosen by language.

`Rule.decorators` is the rendering and `Rule.descriptor` the same rule as data.
-/

namespace SchemaScribe

/-- What a rule checks. -/
inductive Check where
  | integer
  | decimal
  | boolean
  | date
  | text
  /-- The input is a member of the named enumeration. -/
  | member (enumeration : Name)
  /-- No check in particular. -/
  | unspecified
  deriving DecidableEq, Repr, Inhabited

namespace Check

/-- The section of the string table with the wording of a check. -/
def heading : Check → String
  | .integer => "IntegerRule"
  | .decimal => "DecimalRule"
  | .boolean => "BooleanRule"
  | .date => "DateRule"
  | .text => "StringRule"
  | .member _ => "EnumRule"
  | .unspecified => "ValidationRule"

/-- The category under which a check is described. -/
def category : Check → String
  | .integer => "integer"
  | .decimal => "decimal"
  | .boolean => "boolean"
  | .date => "date"
  | .text => "string"
  | .member _ => "enum"
  | .unspecified => ""

/-- The transform applied to the input before a check. -/
def transform? : Check → Option String
  | .integer => some "integer"
  | .decimal => some "decimal"
  | .boolean => some "boolean"
  | .date => some "date"
  | .text | .member _ | .unspecified => none

end Check

/-- The check for a column of a plain type. -/
def SqlType.check : SqlType → Check
  | .int | .bigint | .tinyint | .smallint => .integer
  | .float | .real | .decimal => .decimal
  | .boolean => .boolean
  | .date | .timestamp => .date
  | .text | .varchar => .text

/-- A check of the field of a name, worded in a language. -/
structure Rule where
  check : Check
  field : Name
  language : Json := StringTable.language
  deriving DecidableEq, Repr, Inhabited

/-- Why a rule cannot be worded or rendered. -/
inductive RuleError where
  /-- The string table of the language cannot be opened. -/
  | noTable (fault : Fault) (language : Json)
  /-- No string table can be looked up by the language. -/
  | notALanguage (typeName : String)
  /-- No file can have the name of the string table of the language. -/
  | noTableName (e : PathError)
  | noSection (heading : String) (language : Json)
  | noKey (key : Json) (heading : String)
  /-- The string table is not laid out as it has to be. -/
  | table (fault : TableFault)
  | template (fault : Template.Fault)
  /-- The wording under a key is no text. -/
  | wordingNotText (key : String) (typeName : String)
  /-- A value for the wording has a name that is taken. -/
  | reservedName (name : Text)
  deriving DecidableEq, Repr, Inhabited

/-- The text of an error. String tables are looked for in the given folder. -/
def RuleError.message (folder : Text) : RuleError → Text
  | .noTable fault language =>
    fault.message ((FilePath.ofText folder).join (StringTable.fileName language)).toText
  | .notALanguage typeName => "unhashable type: '" ++ typeName ++ "'"
  | .noTableName e => e.message
  | .noSection heading language =>
    "No string templates found for " ++ heading ++ " in " ++ language.toText
  | .noKey key heading => "Key '" ++ key.toText ++ "' not found in templates for " ++ heading
  | .table fault => fault.message
  | .template fault => fault.message
  | .wordingNotText key typeName =>
    "Expected " ++ key ++ " to be a string, got <class '" ++ typeName ++ "'>"
  | .reservedName name =>
    "ValidationRule.get_string() got multiple values for argument '" ++ name ++ "'"

/-- A rule as data. -/
structure Descriptor where
  category : String
  message : Text
  transform : Option String
  deriving DecidableEq, Repr, Inhabited

namespace Rule

/-- A rule as messages show it. -/
def display (rule : Rule) : String :=
  rule.check.heading ++ "(" ++ rule.field.display ++ ")"

/-- The values that the wording of a rule may refer to. -/
def parameters (rule : Rule) : Entries Json :=
  match rule.check with
  | .member enumeration => [("field_name", rule.field), ("enum_name", enumeration)]
  | _ => [("field_name", rule.field)]

/-- Why there is no string table for a language that has none. The folder of the string tables
holds their files and no folders, so that the first name of the path decides. -/
def noTable (language : Json) : RuleError :=
  let path := FilePath.ofText (StringTable.fileName language)
  let first := path.parts.headD []
  match path.bytes, FilePath.encode first with
  | .error e, _ => .noTableName e
  | .ok _, .error e => .noTableName (.encoding e)
  | .ok bytes, .ok firstBytes =>
    let fault : Fault :=
      if maxPath < bytes.length ∨ maxName < firstBytes.length then .nameTooLong
      else if first = StringTable.fileName StringTable.language then .notDirectory
      else .notFound
    .noTable fault language

/-- The string table of the rule's language. -/
def table (tables : Entries StringTable Json) (rule : Rule) : Except RuleError StringTable :=
  if rule.language.isCompound then .error (.notALanguage rule.language.typeName)
  else match tables.get? rule.language.key with
    | some table => .ok table
    | none => .error (noTable rule.language)

/-- Fills in a value of the string table. -/
def fill (values : Entries Json) (template : Json) : Except RuleError Json :=
  (Template.formatValue values template).mapError .template

/-- Whether no value for the wording of a rule can have the name. -/
def isReserved (name : Text) : Bool := name = "key" || name = "self"

/-- The wording of a rule under a key, filled in with the given values. -/
def string (tables : Entries StringTable Json) (rule : Rule) (key : Json)
    (values : Entries Json) : Except RuleError Json := do
  if let some (name, _) := values.find? (isReserved ·.1) then
    .error (.reservedName name)
  let table ← rule.table tables
  let heading := rule.check.heading
  if !(← (StringTable.mentions table (.text heading)).mapError .table) then
    .error (.noSection heading rule.language)
  let wording ← (StringTable.part table (.text heading)).mapError .table
  if !(← (StringTable.mentions wording key).mapError .table) then
    .error (.noKey key heading)
  fill values (← (StringTable.part wording key).mapError .table)

/-- The wording of a rule under a key, filled in with the rule's own values; it has to be a
text. -/
def text (tables : Entries StringTable Json) (rule : Rule) (key : String) :
    Except RuleError Text := do
  match ← rule.string tables (.text key) rule.parameters with
  | .text t => .ok t
  | x => .error (.wordingNotText key x.typeName)

/-- What the rule reports when the input does not pass. -/
def message (tables : Entries StringTable Json) (rule : Rule) : Except RuleError Text :=
  rule.text tables "error_message"

/-- Fills in the layout of a decorator line. -/
def line (layout : Text) (values : Entries Json) : Except RuleError Text :=
  (Template.format values layout).mapError .template

/-- The line of the transform, if the check has one. The layout of the lines is given by the
section `lines` of the table. -/
def transformLines (rule : Rule) (table : StringTable) (lines : Json) :
    Except RuleError (List Text) :=
  match rule.check.transform? with
  | none => .ok []
  | some kind => do
    let transforms ← (StringTable.part table StringTable.transforms).mapError .table
    let transform ← (StringTable.part transforms (.text kind)).mapError .table
    let layout ← (StringTable.partOr StringTable.transformLine lines "transform_line").mapError
      .table
    let layout ← (StringTable.template layout).mapError .table
    return [← line layout [("transform", transform)]]

/-- The line of the validator. The layout of the lines is given by the section `lines` of the
table. -/
def validatorLine (tables : Entries StringTable Json) (rule : Rule) (lines : Json) :
    Except RuleError Text := do
  let layout ← (StringTable.part lines (.text "validator_line")).mapError .table
  let layout ← (StringTable.template layout).mapError .table
  let validator ← rule.text tables "validator"
  let arguments ← rule.text tables "arguments"
  let message ← rule.message tables
  line layout [("validator", .text validator), ("arguments", .text arguments),
    ("error_message", .text message)]

/-- The decorator lines of a rule: the transform, then the validator. -/
def decorators (tables : Entries StringTable Json) (rule : Rule) :
    Except RuleError (List Text) := do
  let table ← rule.table tables
  let lines ← (StringTable.partOr (.object []) table StringTable.layout).mapError .table
  let transform ← rule.transformLines table lines
  let validator ← rule.validatorLine tables lines
  return transform ++ [validator]

/-- A rule as data. -/
def descriptor (tables : Entries StringTable Json) (rule : Rule) :
    Except RuleError Descriptor := do
  let message ← rule.message tables
  return ⟨rule.check.category, message, rule.check.transform?⟩

end Rule

end SchemaScribe
