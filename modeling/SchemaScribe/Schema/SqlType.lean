import SchemaScribe.Text.Basic

/-!
# Plain column types

The column types that need nothing but their name. Each has a scalar category, the type of the
value that a model holds for it.
-/

namespace SchemaScribe

/-- What kind of value a scalar field of a model holds. -/
inductive Scalar where
  | text
  | number
  | boolean
  | dateTime
  deriving DecidableEq, Repr, Inhabited

namespace Scalar

/-- The name of a category. -/
def name : Scalar → String
  | .text => "string"
  | .number => "number"
  | .boolean => "boolean"
  | .dateTime => "date-time"

/-- All categories. -/
def all : List Scalar := [.text, .number, .boolean, .dateTime]

/-- The category of a name. -/
def ofName? (name : Text) : Option Scalar := all.find? fun s => (s.name : Text) == name

end Scalar

/-- A column type that needs nothing but its name. -/
inductive SqlType where
  | text
  | varchar
  | int
  | float
  | bigint
  | tinyint
  | smallint
  | real
  | boolean
  | timestamp
  | date
  | decimal
  deriving DecidableEq, Repr, Inhabited

namespace SqlType

/-- The name of a type. -/
def name : SqlType → String
  | .text => "text"
  | .varchar => "varchar"
  | .int => "int"
  | .float => "float"
  | .bigint => "bigint"
  | .tinyint => "tinyint"
  | .smallint => "smallint"
  | .real => "real"
  | .boolean => "boolean"
  | .timestamp => "timestamp"
  | .date => "date"
  | .decimal => "decimal"

/-- All plain types. -/
def all : List SqlType :=
  [.text, .varchar, .int, .float, .bigint, .tinyint, .smallint, .real, .boolean, .timestamp,
    .date, .decimal]

/-- The type of a name. -/
def ofName? (name : Text) : Option SqlType := all.find? fun t => (t.name : Text) == name

/-- The category of a type. -/
def scalar : SqlType → Scalar
  | .text | .varchar => .text
  | .int | .float | .bigint | .tinyint | .smallint | .real | .decimal => .number
  | .boolean => .boolean
  | .timestamp | .date => .dateTime

theorem ofName?_name (t : SqlType) : ofName? t.name = some t := by
  cases t <;> decide

end SqlType

end SchemaScribe
