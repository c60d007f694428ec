import SchemaScribe.Json.Key
import SchemaScribe.Schema.SqlType

/-!
# Schemas

A schema is a list of items: tables, which have columns, and enumerations, which have members.
Nothing is resolved here; a column refers to other items by their names only, and a name may
stand for no item or for several.

An item list may also hold values that are no items, and a column may have a value for a type
that is no type. Names and the members of an enumeration may be any values too. All this comes
from callers that build a schema by hand; the reader of schema documents produces no such thing.
-/

namespace SchemaScribe

/-- What an item or a column is called: a text, in all but schemas built by hand. An item is found
by the key of its name, so that one name may be written in several ways. -/
abbrev Name := Json

/-- The two kinds of items. -/
inductive ItemKind where
  | table
  | enumeration
  deriving DecidableEq, Repr, Inhabited

/-- The name of a kind. -/
def ItemKind.name : ItemKind → String
  | .table => "table"
  | .enumeration => "enum"

/-- The type of a column. A type has a name, as the schema has it; only for a plain type the name
says which it is. -/
inductive ColumnType where
  /-- A plain type; the name may be that of no plain type. -/
  | common (name : Json)
  | decimal (name precision scale : Json)
  | chars (name length : Json)
  /-- A member of the enumeration `members`. -/
  | enumeration (name : Json) (members : Name)
  /-- A reference to a row of the table by the value of its column `key`. -/
  | relation (name : Json) (table key : Name)
  /-- A value that is no type. -/
  | other (value : Json)
  deriving DecidableEq, Repr, Inhabited

/-- A flag of a column. -/
structure Attribute where
  type : Json
  value : Json
  deriving DecidableEq, Repr, Inhabited

/-- A column of a table. -/
structure Column where
  name : Name
  type : ColumnType
  attributes : List Attribute
  deriving DecidableEq, Repr, Inhabited

namespace Column

/-- The first attribute of a type. -/
def attribute? (column : Column) (type : Json) : Option Attribute :=
  column.attributes.find? (·.type.equals type)

/-- A column is required when its first `null` attribute has a value that does not count as
true. -/
def isRequired (column : Column) : Bool :=
  match column.attribute? (.text "null") with
  | some flag => !flag.value.isTruthy
  | none => false

end Column

/-- A table. -/
structure Table where
  name : Name
  columns : List Column
  deriving DecidableEq, Repr, Inhabited

/-- The first column of a name. -/
def Table.column? (table : Table) (name : Name) : Option Column :=
  table.columns.find? (·.name.equals name)

/-- An enumeration. Its members are the elements of a value, a list in all but schemas built by
hand. -/
structure Enumeration where
  name : Name
  members : Json
  deriving DecidableEq, Repr, Inhabited

/-- An element of an item list. -/
inductive Item where
  | table (t : Table)
  | enumeration (e : Enumeration)
  /-- A value that is no item. -/
  | other (value : Json)
  deriving DecidableEq, Repr, Inhabited

/-- The table that an item is, if it is one. -/
def Item.table? : Item → Option Table
  | .table t => some t
  | _ => none

/-- The enumeration that an item is, if it is one. -/
def Item.enumeration? : Item → Option Enumeration
  | .enumeration e => some e
  | _ => none

/-- The name of an item; a value that is no item has none. -/
def Item.name? : Item → Option Name
  | .table t => some t.name
  | .enumeration e => some e.name
  | .other _ => none

/-- A list of items. -/
abbrev Schema := List Item

namespace Schema

/-- The first table of a name. -/
def table? (schema : Schema) (name : Name) : Option Table :=
  (schema.filterMap Item.table?).find? (·.name.key = name.key)

/-- The first enumeration of a name. -/
def enumeration? (schema : Schema) (name : Name) : Option Enumeration :=
  (schema.filterMap Item.enumeration?).find? (·.name.key = name.key)

/-- The first name that no item can be found by: a list or an object. -/
def unusableName? (schema : Schema) : Option Name :=
  (schema.filterMap Item.name?).find? Json.isCompound

end Schema

end SchemaScribe
