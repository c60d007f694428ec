import SchemaScribe.Model.Field
import SchemaScribe.Text.Joined

/-!
# Models as TypeScript

The text of a model. A table is a class, whose fields carry decorators, or an interface; an
enumeration is an enumeration of texts. Each text ends with its closing brace and no line end.
-/

namespace SchemaScribe.TypeScript

/-- The type name of a scalar. -/
def scalarName : Scalar → String
  | .text => "string"
  | .number => "number"
  | .boolean => "boolean"
  | .dateTime => "Date"

/-- The name of a type; items are referred to by their own names. -/
def typeName : FieldType → Name
  | .scalar s => .text (scalarName s)
  | .enumeration name => name
  | .table name => name

/-! ## Fields -/

/-- What stands behind the name of a field: `?` for one that may be absent, and `!` for a
required one in a class. -/
def marker (annotated isRequired : Bool) : String :=
  if !isRequired then "?" else if annotated then "!" else ""

/-- The declaration of a field. -/
def declaration (annotated : Bool) (field : Field) : Text :=
  field.name.toText ++ marker annotated field.isRequired ++ ": " ++ (typeName field.type).toText

/-- The decorator lines of rules, in order. -/
def decorators : List Rule → Except RuleError (List Text)
  | [] => .ok []
  | rule :: rest => do
    let lines ← rule.decorators StringTable.all
    let tail ← decorators rest
    return lines ++ tail

/-- The lines of a field: its decorators, if models have them, and its declaration. -/
def fieldLines (annotated : Bool) (field : Field) : Except RuleError (List Text) := do
  let decorators ← if annotated then decorators field.rules else .ok []
  return decorators ++ [declaration annotated field]

/-- The lines of fields, in order. -/
def bodyLines (annotated : Bool) : List Field → Except RuleError (List Text)
  | [] => .ok []
  | field :: rest => do
    let lines ← fieldLines annotated field
    let tail ← bodyLines annotated rest
    return lines ++ tail

/-! ## Files -/

/-- The imports of every class. -/
def libraryImports : List Text :=
  ["import \x7b ClassConstructor, Transform, Type, plainToInstance \x7d from " ++
      "\"class-transformer\";",
    "import \x7b IsNotEmpty, IsNumber, IsObject, IsBoolean, IsOptional, IsISO8601, IsString, " ++
      "IsEnum, ValidateNested, IsArray, ValidationError, validateOrReject \x7d from " ++
      "\"class-validator\";"]

/-- The import of the item of a name from the module at a path. -/
def importLine (name : Name) (path : Text) : Text :=
  "import \x7b " ++ name.toText ++ " \x7d from '" ++ path ++ "'"

/-- The start of the model of a table. -/
def opening (annotated : Bool) (name : Name) : Text :=
  if annotated then
    Text.withLineEnds libraryImports ++ "\nexport class " ++ name.toText ++ " \x7b\n"
  else "export interface " ++ name.toText ++ " \x7b\n"

/-- The text of the model of a table. -/
def tableText (annotated : Bool) (indent : Text) (imports : List Text) (name : Name)
    (body : List Text) : Text :=
  Text.withLineEnds imports ++ "\n" ++ opening annotated name ++
    Text.withLineEnds (body.map (indent ++ ·)) ++ "\x7d"

/-- The entry of a member of an enumeration. -/
def memberLine (member : Json) : Text :=
  "'" ++ member.toText ++ "' = '" ++ member.toText ++ "',"

/-- The text of an enumeration of a name with the given members. -/
def enumerationText (indent : Text) (name : Name) (members : List Json) : Text :=
  "export enum " ++ name.toText ++ " \x7b\n" ++
    Text.withLineEnds (members.map fun m => indent ++ memberLine m) ++ "\x7d;"

end SchemaScribe.TypeScript
