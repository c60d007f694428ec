import SchemaScribe.Json.Display
import SchemaScribe.Schema.Basic

/-!
# Reading schema documents

`Schema.ofJson` reads the items of a JSON document. A document is a list of items, an object with
such a list under `items`, or an object with the tables under `list_table` and the enumerations
under `list_enum`.

The elements are read from first to last, and within one its name, then its type, then the rest;
the first fault decides the error, which names the place where it is.
-/

namespace SchemaScribe

/-- A step from a value to one of its parts. -/
inductive PlaceStep where
  | field (name : Text)
  | element (index : Nat)
  deriving DecidableEq, Repr, Inhabited

/-- A place in a document, from the list of its items on. -/
abbrev Place := List PlaceStep

/-- The text of the steps below a value. -/
def PlaceStep.textBelow : List PlaceStep → Text
  | [] => []
  | .field name :: rest => "." ++ name ++ textBelow rest
  | .element i :: rest => "[" ++ Text.decimal i ++ "]" ++ textBelow rest

/-- The text of a place. -/
def Place.toText (place : Place) : Text := "items" ++ PlaceStep.textBelow place

/-- What is wrong at a place. -/
inductive SchemaFault where
  | itemNotObject
  | columnNotObject
  /-- The member `key` is not there or not of the expected kind. -/
  | member (key expected : String)
  | unknownItemType (value : Json)
  | membersNotTexts
  | unknownCommonType (value : Json)
  | unknownTypeKind (value : Json)
  | attributesShape
  | attributeShape
  deriving DecidableEq, Repr, Inhabited

/-- The wording of a fault. -/
def SchemaFault.wording : SchemaFault → String
  | .itemNotObject => "item must be an object"
  | .columnNotObject => "column must be an object"
  | .member key expected => "'" ++ key ++ "' must be a " ++ expected
  | .unknownItemType x => "unknown item type " ++ x.display
  | .membersNotTexts => "enum items must be strings"
  | .unknownCommonType x => "unknown common type " ++ x.display
  | .unknownTypeKind x => "unknown type kind " ++ x.display
  | .attributesShape => "attributes must be a list or an object"
  | .attributeShape => "attribute must be an object with a 'type'"

/-- Why a document is no schema. -/
inductive SchemaError where
  | documentShape
  | itemsNotList
  | at (place : Place) (fault : SchemaFault)
  /-- One of the two lists is a value that has no elements. -/
  | noElements (typeName : String)
  deriving DecidableEq, Repr, Inhabited

/-- The text of an error. -/
def SchemaError.message : SchemaError → Text
  | .documentShape =>
    "Schema document must be a list of items, \x7b'items': [...]\x7d or " ++
      "\x7b'list_table': [...], 'list_enum': [...]\x7d"
  | .itemsNotList => "Schema items must be a list"
  | .at place fault => place.toText ++ ": " ++ fault.wording
  | .noElements typeName => "Value after * must be an iterable, not " ++ typeName

namespace Schema

/-! ## Parts of an item -/

/-- The text under a key. -/
def textMember (place : Place) (members : List (Text × Json)) (key : String) :
    Except SchemaError Text :=
  match Json.member members key with
  | .text t => .ok t
  | _ => .error (.at place (.member key "str"))

/-- The list under a key. -/
def listMember (place : Place) (members : List (Text × Json)) (key : String) :
    Except SchemaError (List Json) :=
  match Json.member members key with
  | .list xs => .ok xs
  | _ => .error (.at place (.member key "list"))

/-- The object under a key. -/
def objectMember (place : Place) (members : List (Text × Json)) (key : String) :
    Except SchemaError (List (Text × Json)) :=
  match Json.member members key with
  | .object ms => .ok ms
  | _ => .error (.at place (.member key "dict"))

/-- Applies a reader to each element, telling it the place. -/
def readAll {α : Type} (read : Place → Json → Except SchemaError α) (place : Place) :
    (index : Nat) → List Json → Except SchemaError (List α)
  | _, [] => .ok []
  | index, x :: rest => do
    let a ← read (place ++ [.element index]) x
    let tail ← readAll read place (index + 1) rest
    return a :: tail

/-- Reads an element of a list of attributes. -/
def readAttribute (place : Place) : Json → Except SchemaError Attribute
  | .object members =>
    match Json.member? members "type" with
    | some type => .ok ⟨type, Json.member members "value"⟩
    | none => .error (.at place .attributeShape)
  | _ => .error (.at place .attributeShape)

/-- Reads the attributes of a column. A value that does not count as true stands for none. -/
def readAttributes (place : Place) (value : Json) : Except SchemaError (List Attribute) :=
  if !value.isTruthy then .ok []
  else match value with
    | .object members => .ok (members.map fun (key, x) => ⟨.text key, x⟩)
    | .list elements => readAll readAttribute place 0 elements
    | _ => .error (.at place .attributesShape)

/-- Reads the type of a column. -/
def readType (place : Place) (members : List (Text × Json)) :
    Except SchemaError ColumnType :=
  let kind := Json.member members "kind"
  match kind.string? with
  | some "common" =>
    let name := Json.member members "type"
    if (name.text?.bind SqlType.ofName?).isSome then .ok (.common name)
    else .error (.at place (.unknownCommonType name))
  | some "decimal" =>
    .ok (.decimal (.text "decimal") (Json.member members "precision") (Json.member members "scale"))
  | some "chars" =>
    .ok (.chars (.text "varchar")
      ((Json.member? members "length").getD (Json.member members "size")))
  | some "enum" => do
    let name ← textMember place members "enum_name"
    return .enumeration (.text "enum") (.text name)
  | some "relation" => do
    let table ← textMember place members "table_name"
    let key ← textMember place members "foreign_key"
    return .relation (.text "relation") (.text table) (.text key)
  | _ => .error (.at place (.unknownTypeKind kind))

/-- Reads a column. -/
def readColumn (place : Place) : Json → Except SchemaError Column
  | .object members => do
    let name ← textMember place members "name"
    let typeMembers ← objectMember place members "type"
    let type ← readType (place ++ [.field "type"]) typeMembers
    let attributes ←
      readAttributes (place ++ [.field "attributes"]) (Json.member members "attributes")
    return ⟨.text name, type, attributes⟩
  | _ => .error (.at place .columnNotObject)

/-! ## Items -/

/-- Reads an item. -/
def readItem (place : Place) : Json → Except SchemaError Item
  | .object members => do
    let name ← textMember place members "name"
    let type := Json.member members "type"
    match type.string? with
    | some "table" =>
      let columns ← listMember place members "columns"
      let columns ← readAll readColumn (place ++ [.field "columns"]) 0 columns
      return .table ⟨.text name, columns⟩
    | some "enum" =>
      let elements ← listMember place members "items"
      if elements.all fun x => x.text?.isSome then
        return .enumeration ⟨.text name, .list elements⟩
      else .error (.at place .membersNotTexts)
    | _ => .error (.at place (.unknownItemType type))
  | _ => .error (.at place .itemNotObject)

/-- Reads the elements of a list of items. -/
def readItems (elements : List Json) : Except SchemaError Schema :=
  readAll readItem [] 0 elements

/-- The elements that a value contributes to a list. -/
def elementsOf (x : Json) : Except SchemaError (List Json) :=
  match x.elements? with
  | some elements => .ok elements
  | none => .error (.noElements x.typeName)

/-- The elements that a document has for items. -/
def itemElements : Json → Except SchemaError (List Json)
  | .list elements => .ok elements
  | .object members =>
    let under := Json.member? members
    match under "items", under "list_table", under "list_enum" with
    | some (.list elements), _, _ => .ok elements
    | some _, _, _ => .error .itemsNotList
    | none, none, none => .error .documentShape
    | none, tables, enumerations => do
      let tables ← elementsOf (tables.getD (.list []))
      let enumerations ← elementsOf (enumerations.getD (.list []))
      return tables ++ enumerations
  | _ => .error .documentShape

/-- Reads the items of a document. -/
def ofJson (document : Json) : Except SchemaError Schema := do
  readItems (← itemElements document)

end Schema

end SchemaScribe
