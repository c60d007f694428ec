import SchemaScribe.Model.FieldType
import SchemaScribe.Options
import SchemaScribe.Rule.Basic

/-!
# The fields of a model

A column gives its model one field, or two when it is a relation: first the row that it refers
to, then the value by which it refers to it. `Schema.fieldsOf` gives the fields of a column and
`Schema.fieldsOfTable` those of all columns of a table, in order.
-/

namespace SchemaScribe

/-- A field of a model. -/
structure Field where
  name : Name
  type : FieldType
  isRequired : Bool
  rules : List Rule
  deriving DecidableEq, Repr, Inhabited

/-- The check for the field of a column; a relation has none. -/
def ColumnType.check? : ColumnType → Option Check
  | .common name => (name.text?.bind SqlType.ofName?).map SqlType.check
  | .decimal .. => some .decimal
  | .chars .. => some .text
  | .enumeration _ members => some (.member members)
  | .relation .. | .other _ => none

/-- The rules of the field of a column, if models have decorators. -/
def Options.rulesFor (options : Options) (column : Column) : List Rule :=
  if options.annotated then
    column.type.check?.toList.map fun check => { check, field := column.name }
  else []

/-- The name of the field that holds the row a relation refers to. -/
def Options.referenceName (options : Options) (column : Column) : Name :=
  .text (options.relationPrefix.toText ++ column.name.toText)

namespace Schema

/-- The fields of a column of a table. -/
def fieldsOf (options : Options) (schema : Schema) (table : Table) (column : Column) :
    Except ReferenceError (List Field) :=
  match column.type with
  | .relation _ target key => do
    let resolved ← schema.targetOf target key table.name column.name
    let type ← schema.typeOf column.type table.name column.name
    return [⟨options.referenceName column, .table resolved.table.name, column.isRequired, []⟩,
      ⟨column.name, type, column.isRequired, []⟩]
  | _ => do
    let type ← schema.typeOf column.type table.name column.name
    return [⟨column.name, type, column.isRequired, options.rulesFor column⟩]

/-- The fields of the given columns of a table, in order. -/
def fieldsOfColumns (options : Options) (schema : Schema) (table : Table) :
    List Column → Except ReferenceError (List Field)
  | [] => .ok []
  | column :: rest => do
    let fields ← schema.fieldsOf options table column
    let tail ← fieldsOfColumns options schema table rest
    return fields ++ tail

/-- The fields of a table. -/
def fieldsOfTable (options : Options) (schema : Schema) (table : Table) :
    Except ReferenceError (List Field) :=
  schema.fieldsOfColumns options table table.columns

end Schema

end SchemaScribe
