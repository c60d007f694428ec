import SchemaScribe.Json.Display
import SchemaScribe.Schema.Basic
import SchemaScribe.Text.Joined

/-!
# The type of a column

`Schema.typeOf` finds the type with which a column is declared in a model. A relation has the
type of the column it refers to, which may be a relation again; the chain is followed to its
first column that is none. The columns on the way are remembered by their links, texts of the
form `table.column`, and a link seen before ends the search.

The search ends because each step adds a link that is new to the chain, and all links but that
of the start belong to columns of the schema (`link_mem_links`).
-/

namespace SchemaScribe

/-- The type with which a field is declared. -/
inductive FieldType where
  | scalar (category : Scalar)
  | enumeration (name : Name)
  /-- The model of a table. -/
  | table (name : Name)
  deriving DecidableEq, Repr, Inhabited

/-- The item that a type refers to, if it does. -/
def FieldType.item? : FieldType → Option (ItemKind × Name)
  | .scalar _ => none
  | .enumeration name => some (.enumeration, name)
  | .table name => some (.table, name)

/-- A column type as messages show it. -/
def ColumnType.display : ColumnType → String
  | .common name => "CommonType(type=" ++ name.display ++ ")"
  | .decimal name precision scale =>
    "DecimalType(type=" ++ name.display ++ ", precision=" ++ precision.display ++
      ", scale=" ++ scale.display ++ ")"
  | .chars name length =>
    "CharsType(type=" ++ name.display ++ ", length=" ++ length.display ++ ")"
  | .enumeration name members =>
    "EnumType(type=" ++ name.display ++ ", enum_name=" ++ members.display ++ ")"
  | .relation name table key =>
    "RelationType(type=" ++ name.display ++ ", table_name=" ++ table.display ++
      ", foreign_key=" ++ key.display ++ ")"
  | .other value => value.display

/-- Why a column has no type. -/
inductive ReferenceError where
  /-- No item of the kind has the name that the column refers to. -/
  | missing (kind : ItemKind) (column name : Name)
  /-- The table that the relation `table.column` refers to has no column `key`. -/
  | noKey (table column target key : Name)
  /-- The relations from the first link on lead back to the last. -/
  | circular (chain : List Text)
  | unsupported (column : Name) (type : ColumnType)
  /-- A list or an object stands where a name has to be. -/
  | notAName (typeName : String)
  deriving DecidableEq, Repr, Inhabited

/-- The text of an error. -/
def ReferenceError.message : ReferenceError → Text
  | .missing kind column name =>
    (match kind with | .table => "Table" | .enumeration => "Enum") ++ " \"" ++ name.toText ++
      "\" referenced by column \"" ++ column.toText ++ "\" is not available on models"
  | .noKey table column target key =>
    "Column \"" ++ key.toText ++ "\" on foreign table \"" ++ target.toText ++
      "\" not found on relation \"" ++ table.toText ++ "." ++ column.toText ++ "\""
  | .circular chain => "Circular relation: " ++ Text.joined " -> " chain
  | .unsupported column type =>
    "Unsupported type " ++ type.display ++ " on column \"" ++ column.toText ++ "\""
  | .notAName typeName => "unhashable type: '" ++ typeName ++ "'"

/-- The column that a relation refers to, and its table. -/
structure Target where
  table : Table
  column : Column
  deriving DecidableEq, Repr, Inhabited

/-- The link of a column: by this text a chain remembers it. -/
def link (table column : Name) : Text := table.toText ++ "." ++ column.toText

namespace Schema

/-! ## References -/

/-- Succeeds when every item can be found by its name. -/
def checkNames (schema : Schema) : Except ReferenceError Unit :=
  match schema.unusableName? with
  | some name => .error (.notAName name.typeName)
  | none => .ok ()

/-- What a column refers to by a name, `found` being the item of the kind that has it. -/
def lookUp {α : Type} (kind : ItemKind) (found : Option α) (name column : Name) :
    Except ReferenceError α :=
  if name.isCompound then .error (.notAName name.typeName)
  else match found with
    | some a => .ok a
    | none => .error (.missing kind column name)

/-- The enumeration that a column refers to. -/
def enumerationOf (schema : Schema) (name column : Name) : Except ReferenceError Enumeration :=
  lookUp .enumeration (schema.enumeration? name) name column

/-- The table that a column refers to. -/
def tableOf (schema : Schema) (name column : Name) : Except ReferenceError Table :=
  lookUp .table (schema.table? name) name column

/-- The column that a relation refers to. The relation itself is the column `owner.column`. -/
def targetOf (schema : Schema) (table key owner column : Name) :
    Except ReferenceError Target := do
  let target ← schema.tableOf table column
  match target.column? key with
  | some c => return ⟨target, c⟩
  | none => .error (.noKey owner column table key)

/-- The links of all columns of a schema. -/
def links (schema : Schema) : List Text :=
  (schema.filterMap Item.table?).flatMap fun t => t.columns.map fun c => link t.name c.name

theorem lookUp_eq_ok_iff {α : Type} {kind : ItemKind} {found : Option α} {name column : Name}
    {a : α} :
    lookUp kind found name column = .ok a ↔ name.isCompound = false ∧ found = some a := by
  cases found <;> cases h : name.isCompound <;> simp [lookUp, h]

/-- A column refers to a table exactly when it gives the name of one of the schema. -/
theorem tableOf_eq_ok_iff {schema : Schema} {name column : Name} {table : Table} :
    schema.tableOf name column = .ok table ↔
      name.isCompound = false ∧ schema.table? name = some table :=
  lookUp_eq_ok_iff

/-- A relation refers to a column exactly when it names a table of the schema and a column of
that table. -/
theorem targetOf_eq_ok_iff {schema : Schema} {table key owner column : Name}
    {target : Target} : schema.targetOf table key owner column = .ok target ↔
      (table.isCompound = false ∧ schema.table? table = some target.table) ∧
        target.table.column? key = some target.column := by
  obtain ⟨t, c⟩ := target
  rw [← @tableOf_eq_ok_iff schema table column, targetOf]
  cases schema.tableOf table column with
  | error e => simp [bind, Except.bind]
  | ok u =>
    simp only [bind, Except.bind, Except.ok.injEq]
    cases hc : u.column? key with
    | none =>
      simp only [reduceCtorEq, false_iff, not_and]
      rintro rfl
      simp [hc]
    | some d =>
      simp only [pure, Except.pure, Except.ok.injEq, Target.mk.injEq]
      constructor
      · rintro ⟨rfl, rfl⟩
        exact ⟨rfl, hc⟩
      · rintro ⟨rfl, h⟩
        exact ⟨rfl, by simpa [hc] using h⟩

/-- What a relation refers to is a column of the schema. -/
theorem link_mem_links {schema : Schema} {table key owner column : Name} {target : Target}
    (h : schema.targetOf table key owner column = .ok target) :
    link target.table.name target.column.name ∈ schema.links := by
  obtain ⟨⟨_, ht⟩, hc⟩ := targetOf_eq_ok_iff.1 h
  exact List.mem_flatMap.2 ⟨target.table, List.mem_of_find?_eq_some ht,
    List.mem_map.2 ⟨target.column, List.mem_of_find?_eq_some hc, rfl⟩⟩

/-! ## Chains of relations -/

/-- The number of steps left to a chain that stands at a link: the links of the schema that are
not on the chain yet, and one more from a column outside the schema. -/
def stepsLeft (schema : Schema) (chain : List Text) (here : Text) : Nat :=
  (schema.links.filter (· ∉ chain)).length + if here ∈ schema.links then 0 else 1

theorem filter_eq_filter_filter {α : Type} {p q : α → Bool} (hpq : ∀ x, p x → q x)
    (l : List α) : l.filter p = (l.filter q).filter p := by
  rw [List.filter_filter]
  refine List.filter_congr fun x _ => ?_
  cases hx : p x with
  | true => simp [hpq x hx]
  | false => rfl

theorem stepsLeft_lt {schema : Schema} {chain : List Text} {here next : Text}
    (hhere : here ∉ chain) (hnext : next ∈ schema.links) :
    schema.stepsLeft (chain ++ [here]) next < schema.stepsLeft chain here := by
  unfold stepsLeft
  rw [if_pos hnext]
  have sub : ∀ x, decide (x ∉ chain ++ [here]) = true → decide (x ∉ chain) = true := by
    intro x hx
    simp only [List.mem_append, not_or, decide_eq_true_eq] at hx ⊢
    exact hx.1
  rw [filter_eq_filter_filter sub]
  by_cases h : here ∈ schema.links
  · rw [if_pos h]
    exact List.length_filter_lt_length_iff_exists.2
      ⟨here, List.mem_filter.2 ⟨h, by simpa using hhere⟩, by simp⟩
  · rw [if_neg h]
    exact Nat.lt_succ_of_le (List.length_filter_le _ _)

/-- The type of the column `owner.column`, seen at the end of a chain of relations. A chain may be
of any length: the limit that an interpreter sets to calls within calls is set aside here, while the
readers of documents and the writer of files keep it. -/
def typeAlong (schema : Schema) (chain : List Text) (type : ColumnType)
    (owner column : Name) : Except ReferenceError FieldType :=
  match type with
  | .common name =>
    if name.isCompound then .error (.notAName name.typeName)
    else match name.text?.bind SqlType.ofName? with
      | some t => .ok (.scalar t.scalar)
      | none => .error (.unsupported column type)
  | .decimal .. => .ok (.scalar .number)
  | .chars .. => .ok (.scalar .text)
  | .enumeration _ members => do
    let e ← schema.enumerationOf members column
    return .enumeration e.name
  | .relation _ table key =>
    if _seen : link owner column ∈ chain then .error (.circular (chain ++ [link owner column]))
    else
      match _found : schema.targetOf table key owner column with
      | .error e => .error e
      | .ok target =>
        typeAlong schema (chain ++ [link owner column]) target.column.type target.table.name
          target.column.name
  | .other _ => .error (.unsupported column type)
termination_by schema.stepsLeft chain (link owner column)
decreasing_by exact stepsLeft_lt ‹_› (link_mem_links ‹_›)

/-- The type with which the column `owner.column` is declared. -/
def typeOf (schema : Schema) (type : ColumnType) (owner column : Name) :
    Except ReferenceError FieldType :=
  schema.typeAlong [] type owner column

end Schema

end SchemaScribe
