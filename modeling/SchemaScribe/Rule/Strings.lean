import SchemaScribe.Json.Key
import SchemaScribe.Template

/-!
# String tables

The wording of the validation rules for one output language. A string table is an object with a
section for each check, a section with the transforms and a section with the layout of the
decorator lines. The values in it are templates, usually texts.

A table may be any value, since it is read from a file that nothing has checked. `StringTable.part`
and `StringTable.mentions` look into a value by a key, which may be any value too, and say why they
cannot.
-/

namespace SchemaScribe

/-- The wording of the rules for one language. -/
abbrev StringTable := Json

/-- Why a string table cannot be looked into. -/
inductive TableFault where
  /-- An object has nothing under the key. -/
  | missing (key : Json)
  /-- A value that can be no key is looked up in an object. -/
  | notAKey (typeName : String)
  /-- A list has no element at the position. -/
  | noElement
  /-- A value that is no position is looked up in a list. -/
  | keyOfList (typeName : String)
  /-- A key is looked up in a text. -/
  | keyOfText
  /-- A key is looked up in a value that has no parts. -/
  | keyOfScalar (typeName : String)
  /-- A value that is no text is searched for in a text. -/
  | searchInText (typeName : String)
  /-- A key is searched for in a value that has no parts. -/
  | searchInScalar (typeName : String)
  /-- A value that has to be an object is none. -/
  | notAnObject (typeName : String)
  /-- A value that has to be a template is no text. -/
  | notATemplate (typeName : String)
  deriving DecidableEq, Repr, Inhabited

/-- The text of a fault. -/
def TableFault.message : TableFault → Text
  | .missing key => key.toText
  | .notAKey typeName => "unhashable type: '" ++ typeName ++ "'"
  | .noElement => "list index out of range"
  | .keyOfList typeName => "list indices must be integers or slices, not " ++ typeName
  | .keyOfText => "string indices must be integers, not 'str'"
  | .keyOfScalar typeName => "'" ++ typeName ++ "' object is not subscriptable"
  | .searchInText typeName =>
    "'in <string>' requires string as left operand, not " ++ typeName
  | .searchInScalar typeName => "argument of type '" ++ typeName ++ "' is not iterable"
  | .notAnObject typeName => "'" ++ typeName ++ "' object has no attribute 'get'"
  | .notATemplate typeName => "'" ++ typeName ++ "' object has no attribute 'format'"

namespace StringTable

/-- The member of an object under a key, if it has one. -/
def memberAt? (members : List (Text × Json)) (key : Json) : Except TableFault (Option Json) :=
  if key.isCompound then .error (.notAKey key.typeName)
  else .ok (key.text?.bind (Json.member? members))

/-- The element of a list at a position; a negative one counts from the end. -/
def elementAt (elements : List Json) (position : Int) : Except TableFault Json :=
  let fromStart := if position < 0 then position + elements.length else position
  match if fromStart < 0 then none else elements[fromStart.toNat]? with
  | some x => .ok x
  | none => .error .noElement

/-- The part of a value under a key. -/
def part (value key : Json) : Except TableFault Json :=
  match value, key with
  | .object members, key => do
    match ← memberAt? members key with
    | some x => return x
    | none => .error (.missing key)
  | .list elements, .int position => elementAt elements position
  | .list elements, .bool b => elementAt elements (if b then 1 else 0)
  | .list _, key => .error (.keyOfList key.typeName)
  | .text _, _ => .error .keyOfText
  | x, _ => .error (.keyOfScalar x.typeName)

/-- The part of an object under a key, and the default where there is none. -/
def partOr (default value : Json) (key : Text) : Except TableFault Json :=
  match value with
  | .object members => .ok ((Json.member? members key).getD default)
  | x => .error (.notAnObject x.typeName)

/-- Whether the text `t` has the text `s` somewhere in it. -/
def occursIn (s t : Text) : Bool :=
  (List.range (t.length + 1)).any fun i => s.isPrefixOf (t.drop i)

/-- Whether a value mentions a key: as a member of an object, as an element of a list, or somewhere
in a text. -/
def mentions (value key : Json) : Except TableFault Bool :=
  match value, key with
  | .object members, key => Option.isSome <$> memberAt? members key
  | .list elements, key => .ok (elements.any (·.key = key.key))
  | .text t, .text key => .ok (occursIn key t)
  | .text _, key => .error (.searchInText key.typeName)
  | x, _ => .error (.searchInScalar x.typeName)

/-- The template that a value is. -/
def template : Json → Except TableFault Text
  | .text t => .ok t
  | x => .error (.notATemplate x.typeName)

/-! ## The sections of a table -/

/-- The key of the section that holds the transforms. -/
def transforms : Json := .text "_transforms"

/-- The key of the section that holds the layout of the decorator lines. -/
def layout : Text := "_template"

/-- The layout of a transform where a table gives none. -/
def transformLine : Json := .text "@Transform(\x7btransform\x7d)"

/-! ## The table for TypeScript -/

/-- The wording of a check in the TypeScript table. -/
def wording (validator arguments message : String) : Json :=
  .object [("validator", .text validator), ("arguments", .text arguments),
    ("error_message", .text message)]

/-- A transform of the TypeScript table: an absent input stays absent, and any other is turned
into a value of the type by the expression. -/
def transform (type expression : String) : Json :=
  .text ("(param?: any): " ++ type ++ " | null => (param?.value === null || " ++
    "param?.value === undefined || param?.value === '') ? null : " ++ expression)

/-- The string table for TypeScript. -/
def typeScript : StringTable :=
  .object
    [(layout, .object
        [("transform_line", transformLine),
          ("validator_line",
            .text ("@\x7bvalidator\x7d(\x7barguments\x7d\x7b\x7b message: " ++
              "'\x7berror_message\x7d' \x7d\x7d)"))]),
      ("_transforms", .object
        [("integer", transform "number" "parseInt(param.value)"),
          ("decimal", transform "number" "parseFloat(param.value)"),
          ("boolean", transform "boolean"
            ("(param?.value === 'true' || ((typeof param?.value === 'boolean') && " ++
              "param?.value))")),
          ("date", transform "Date" "new Date(param?.value)")]),
      ("IntegerRule",
        wording "IsNumber" "\x7b\x7b\x7d\x7d, " "\x7bfield_name\x7d must be a number (integer)"),
      ("DecimalRule",
        wording "IsNumber" "\x7b\x7b\x7d\x7d, " "\x7bfield_name\x7d must be a number (decimal)"),
      ("BooleanRule", wording "IsBoolean" "" "\x7bfield_name\x7d must be a boolean"),
      ("DateRule",
        wording "IsISO8601" "\x7b\x7b\x7d\x7d, " "\x7bfield_name\x7d must be an ISO8601 date"),
      ("StringRule", wording "IsString" "" "\x7bfield_name\x7d must be a string"),
      ("EnumRule",
        wording "IsEnum" "\x7benum_name\x7d, "
          "\x7bfield_name\x7d must be enum \x7benum_name\x7d")]

/-- The language of the tables that there are. -/
def language : Json := .text "typescript"

/-- The string tables by the key of their language. -/
def all : Entries StringTable Json := [(language, typeScript)]

/-- The name of the file that holds the string table of a language. -/
def fileName (language : Json) : Text := "validation_rules_" ++ language.toText ++ ".json"

end StringTable

end SchemaScribe
