import SchemaScribe.Compile

/-!
# Workspaces

A schema that grows while it is worked with. References are resolved by an index of its items,
which is a snapshot: items added later are seen by it only after it is taken anew. The columns of
the indexed tables are not part of the snapshot, so a new column is seen at once. There is no
index of items one of which has a name that nothing can be found by.
-/

namespace SchemaScribe

/-- A schema at work. -/
structure Workspace where
  options : Options
  items : List Item
  /-- The number of items that the index knows. -/
  indexed : Nat
  deriving Repr, Inhabited

namespace Workspace

/-- A workspace whose index knows all items. -/
def ofSchema (options : Options) (schema : Schema) : Except ReferenceError Workspace := do
  schema.checkNames
  return ⟨options, schema, schema.length⟩

/-- The items by which references are resolved. -/
def index (w : Workspace) : Schema := w.items.take w.indexed

/-- The table at a position. -/
def tableAt? (w : Workspace) (position : Nat) : Option Table :=
  w.items[position]?.bind Item.table?

/-- A column of the table at a position. -/
def columnAt? (w : Workspace) (position column : Nat) : Option (Table × Column) := do
  let t ← w.tableAt? position
  let c ← t.columns[column]?
  return (t, c)

/-- Adds an item at the end. -/
def appendItem (w : Workspace) (item : Item) : Workspace :=
  { w with items := w.items ++ [item] }

/-- An item with a further column, if it is a table. -/
def growItem (column : Column) : Item → Item
  | .table t => .table { t with columns := t.columns ++ [column] }
  | item => item

/-- Adds a column to the table at a position. -/
def appendColumn (w : Workspace) (position : Nat) (column : Column) : Workspace :=
  { w with items := w.items.modify position (growItem column) }

/-- Takes the index anew. -/
def reindex (w : Workspace) : Except ReferenceError Workspace := ofSchema w.options w.items

/-- Sets the options that an object gives; if one of them is refused, none is set. -/
def configure (w : Workspace) : Json → Except OptionsError Workspace
  | .object members => do return { w with options := ← w.options.setAll members }
  | x => .error (.notAnObject x.typeName)

end Workspace

end SchemaScribe
