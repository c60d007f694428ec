import SchemaScribe.Proofs.Schema.Grammar
import SchemaScribe.Proofs.Schema.Reading
import SchemaScribe.Proofs.Schema.Refusals

/-!
# Documents and the items they spell

A document with a list of items is read exactly when all elements are well formed, and then gives
the items that they spell (`ofJson_of_hasItems`). So a list of items that is written as a document
is read back, but for the names of types: only a plain type is told by its name, and any other has
the name of its kind after it was read (`Item.renamed`), whatever name it was written with
(`invoices_not_given_back`).
-/

namespace SchemaScribe

/-! ## Items as documents -/

/-- The object of an attribute. -/
def Attribute.toJson (flag : Attribute) : Json :=
  .object [("type", flag.type), ("value", flag.value)]

/-- The object of a type. -/
def ColumnType.toJson : ColumnType → Json
  | .common name => .object [("kind", .text "common"), ("type", name)]
  | .decimal name precision scale =>
    .object [("kind", .text "decimal"), ("type", name), ("precision", precision), ("scale", scale)]
  | .chars name length => .object [("kind", .text "chars"), ("type", name), ("length", length)]
  | .enumeration name members =>
    .object [("kind", .text "enum"), ("type", name), ("enum_name", members)]
  | .relation name table key =>
    .object [("kind", .text "relation"), ("type", name), ("table_name", table),
      ("foreign_key", key)]
  | .other x => x

/-- The object of a column. -/
def Column.toJson (column : Column) : Json :=
  .object [("name", column.name), ("type", column.type.toJson),
    ("attributes", .list (column.attributes.map Attribute.toJson))]

/-- The object of an item. -/
def Item.toJson : Item → Json
  | .table t =>
    .object [("type", .text "table"), ("name", t.name),
      ("columns", .list (t.columns.map Column.toJson))]
  | .enumeration e => .object [("type", .text "enum"), ("name", e.name), ("items", e.members)]
  | .other x => x

/-- A type after it was written and read: only a plain type keeps its name, and any other has that
of its kind. -/
def ColumnType.renamed : ColumnType → ColumnType
  | .decimal _ precision scale => .decimal (.text "decimal") precision scale
  | .chars _ length => .chars (.text "varchar") length
  | .enumeration _ members => .enumeration (.text "enum") members
  | .relation _ table key => .relation (.text "relation") table key
  | type => type

/-- A column after it was written and read. -/
def Column.renamed (column : Column) : Column := { column with type := column.type.renamed }

/-- An item after it was written and read. -/
def Item.renamed : Item → Item
  | .table t => .table { t with columns := t.columns.map Column.renamed }
  | item => item

/-- An item whose parts are what they are declared to be: names and references are texts, plain
types are known, and the members of an enumeration are a list of texts. -/
def Item.IsTyped : Item → Prop
  | .table t => (∃ name, t.name = .text name) ∧ ∀ c ∈ t.columns, c.IsRead
  | .enumeration e => (∃ name, e.name = .text name) ∧
      ∃ members, e.members = .list members ∧ ∀ x ∈ members, ∃ t, x = .text t
  | .other _ => False

namespace Schema

open Json (member member?)

/-! ## What is written spells what was written -/

theorem exists_spellsType_toJson {type : ColumnType} (h : type.IsRead) :
    ∃ members, type.toJson = .object members ∧ SpellsType members type.renamed := by
  cases type with
  | common name =>
    obtain ⟨t, rfl, known⟩ := h
    exact ⟨_, rfl, .common rfl rfl known⟩
  | decimal name precision scale => exact ⟨_, rfl, .decimal rfl⟩
  | chars name length => exact ⟨_, rfl, .chars rfl⟩
  | enumeration name members =>
    obtain ⟨t, rfl⟩ := h
    exact ⟨_, rfl, .enumeration rfl rfl⟩
  | relation name table key =>
    obtain ⟨⟨t, rfl⟩, k, rfl⟩ := h
    exact ⟨_, rfl, .relation rfl rfl rfl⟩
  | other x => exact absurd h id

theorem spellsColumn_toJson {column : Column} (h : column.IsRead) :
    SpellsColumn column.toJson column.renamed := by
  obtain ⟨name, type, attributes⟩ := column
  obtain ⟨⟨t, rfl⟩, htype⟩ := h
  obtain ⟨members, hobject, hspells⟩ := exists_spellsType_toJson htype
  refine .object rfl hobject hspells (.list ?_)
  rw [List.forall₂_map_left_iff]
  exact List.forall₂_same.2 fun a _ => .object rfl

theorem spellsItem_toJson {item : Item} (h : item.IsTyped) :
    SpellsItem item.toJson item.renamed := by
  cases item with
  | table t =>
    obtain ⟨name, columns⟩ := t
    obtain ⟨⟨t, rfl⟩, hcolumns⟩ := h
    refine .table rfl rfl rfl ?_
    rw [List.forall₂_map_left_iff, List.forall₂_map_right_iff]
    exact List.forall₂_same.2 fun c hc => spellsColumn_toJson (hcolumns c hc)
  | enumeration e =>
    obtain ⟨name, members⟩ := e
    obtain ⟨⟨t, rfl⟩, elements, rfl, htexts⟩ := h
    exact .enumeration rfl rfl rfl htexts
  | other x => exact absurd h id

/-! ## What is spelled keeps its types -/

/-- A type that is spelled has the name of its kind, or is known by its own. -/
theorem SpellsType.renamed_eq {members : List (Text × Json)} {type : ColumnType}
    (h : SpellsType members type) : type.renamed = type := by
  cases h <;> rfl

theorem SpellsColumn.renamed_eq {x : Json} {column : Column} (h : SpellsColumn x column) :
    column.renamed = column := by
  obtain ⟨hname, hobject, htype, hattributes⟩ := h
  rw [Column.renamed, htype.renamed_eq]

theorem SpellsItem.isTyped {x : Json} {item : Item} (h : SpellsItem x item) : item.IsTyped := by
  cases h with
  | table hname htype hlist hcolumns =>
    refine ⟨⟨_, rfl⟩, fun c hc => ?_⟩
    obtain ⟨y, hy⟩ := exists_of_mem_forall₂ hcolumns hc
    exact hy.isRead
  | enumeration hname htype hlist htexts => exact ⟨⟨_, rfl⟩, _, rfl, htexts⟩

theorem SpellsItem.renamed_eq {x : Json} {item : Item} (h : SpellsItem x item) :
    item.renamed = item := by
  cases h with
  | enumeration => rfl
  | @table _ _ _ columns hname htype hlist hcolumns =>
    have hsame : columns.map Column.renamed = columns := by
      refine (List.map_congr_left fun c hc => ?_).trans (List.map_id columns)
      obtain ⟨y, hy⟩ := exists_of_mem_forall₂ hcolumns hc
      exact hy.renamed_eq
    rw [Item.renamed, hsame]

/-! ## Documents -/

/-- A document has the elements for its items: it is their list, or an object with the list under
`items`. -/
def HasItems (document : Json) (elements : List Json) : Prop :=
  document = .list elements ∨
    ∃ members, document = .object members ∧ member members "items" = .list elements

/-- What a document with a list of elements is read as. -/
structure ReadsElements (document : Json) (elements : List Json) : Prop where
  /-- It is read exactly when all elements are well formed. -/
  accepts : (∃ schema, ofJson document = .ok schema) ↔ ∀ x ∈ elements, IsItemObject x
  /-- Otherwise it is refused, for a fault within the first element that is not. -/
  refuses : (∃ x ∈ elements, ¬ IsItemObject x) →
    ∃ before x after below fault, elements = before ++ x :: after ∧ (∀ y ∈ before, IsItemObject y) ∧
      ¬ IsItemObject x ∧ ofJson document = .error (.at (.element before.length :: below) fault)
  /-- The items are those that the elements spell, one for each and in order. -/
  gives : ∀ schema, ofJson document = .ok schema ↔ List.Forall₂ SpellsItem elements schema

theorem itemElements_of_list {members : List (Text × Json)} {elements : List Json}
    (h : member? members "items" = some (.list elements)) :
    itemElements (.object members) = .ok elements := by
  simp only [itemElements, h]

theorem ofJson_eq_of_hasItems {document : Json} {elements : List Json}
    (h : HasItems document elements) : ofJson document = readAll readItem [] 0 elements := by
  have helements : itemElements document = .ok elements := by
    rcases h with rfl | ⟨members, rfl, hitems⟩
    · rfl
    · have hsome : member? members "items" = some (.list elements) := by
        cases hmember : member? members "items" with
        | none => simp [member, hmember] at hitems
        | some x => simpa [member, hmember] using hitems
      exact itemElements_of_list hsome
  rw [ofJson, helements]
  rfl

/-- A document with a list of elements is read element by element. -/
theorem readsElements {document : Json} {elements : List Json} (h : HasItems document elements) :
    ReadsElements document elements := by
  have hgives : ∀ schema, ofJson document = .ok schema ↔
      List.Forall₂ SpellsItem elements schema := by
    intro schema
    rw [ofJson_eq_of_hasItems h]
    exact gives_readItem.readAll_eq_ok_iff
  have haccepts : (∃ schema, ofJson document = .ok schema) ↔ ∀ x ∈ elements, IsItemObject x := by
    simp only [hgives, exists_forall₂_iff, exists_spellsItem_iff]
  refine ⟨haccepts, ?_, hgives⟩
  rintro ⟨x, hx, hnot⟩
  cases hresult : ofJson document with
  | ok schema => exact absurd (haccepts.1 ⟨schema, hresult⟩ x hx) hnot
  | error e =>
    rw [ofJson_eq_of_hasItems h] at hresult
    obtain ⟨i, below, fault, ⟨before, y, after, hsplit, rfl, hbefore, hy⟩, rfl⟩ :=
      (readAll_eq_error_iff isLocated_readItem).1 hresult
    have hread : ∀ y, (∃ item, readItem [] y = .ok item) ↔ IsItemObject y := fun y => by
      simp only [gives_readItem [] y, exists_spellsItem_iff]
    simp only [hread] at hbefore
    exact ⟨before, y, after, below, fault, hsplit, hbefore,
      fun hobject => not_ok_iff.2 ⟨_, hy⟩ ((hread y).2 hobject), by simp⟩

/-- **What is written is read back, but for the names of types.** A document with a list of elements
is read exactly when all of them are well formed, and as the items that they spell. So the document
of typed items is read as these items, in which each type has the name of its kind, and only items
whose types have these names are given back as they were. -/
theorem ofJson_of_hasItems {document : Json} {elements : List Json}
    (h : HasItems document elements) :
    ReadsElements document elements ∧
      ∀ schema : Schema, elements = schema.map Item.toJson →
        ((∀ item ∈ schema, item.IsTyped) → ofJson document = .ok (schema.map Item.renamed)) ∧
        (ofJson document = .ok schema ↔ ∀ item ∈ schema, item.IsTyped ∧ item.renamed = item) := by
  have hreads := readsElements h
  refine ⟨hreads, ?_⟩
  rintro schema rfl
  have hback : (∀ item ∈ schema, item.IsTyped) →
      ofJson document = .ok (schema.map Item.renamed) := by
    intro htyped
    rw [hreads.gives, List.forall₂_map_left_iff, List.forall₂_map_right_iff]
    exact List.forall₂_same.2 fun item hitem => spellsItem_toJson (htyped item hitem)
  refine ⟨hback, fun hsame item hitem => ?_, fun hnames => ?_⟩
  · obtain ⟨x, hx⟩ := exists_of_mem_forall₂ ((hreads.gives schema).1 hsame) hitem
    exact ⟨hx.isTyped, hx.renamed_eq⟩
  · rw [hback fun item hitem => (hnames item hitem).1,
      List.map_congr_left fun item hitem => (hnames item hitem).2]
    exact congrArg Except.ok (List.map_id schema)

/-- An enumeration, and a table with a column of each kind. -/
def ledger : Schema :=
  [.enumeration ⟨.text "Status", .list [.text "OPEN", .text "PAID"]⟩,
    .table ⟨.text "Invoice",
      [⟨.text "id", .common (.text "int"), [⟨.text "null", .bool false⟩, ⟨.text "key", .null⟩]⟩,
        ⟨.text "number", .chars (.text "varchar") (.int 64), []⟩,
        ⟨.text "total", .decimal (.text "decimal") (.int 10) .null, []⟩,
        ⟨.text "status", .enumeration (.text "enum") (.text "Status"), []⟩,
        ⟨.text "payer", .relation (.text "relation") (.text "User") (.text "id"), []⟩]⟩]

/-- Its document. -/
def ledgerDocument : Json := .object [("items", .list (ledger.map Item.toJson))]

theorem ofJson_of_hasItems_ledger :
    HasItems ledgerDocument (ledger.map Item.toJson) ∧
      ReadsElements ledgerDocument (ledger.map Item.toJson) ∧
      ofJson ledgerDocument = .ok ledger ∧
      ∀ item ∈ ledger, item.IsTyped ∧ item.renamed = item := by
  have hitems : HasItems ledgerDocument (ledger.map Item.toJson) := .inr ⟨_, rfl, rfl⟩
  have hback : ofJson ledgerDocument = .ok ledger := by decide +kernel
  obtain ⟨hreads, hwritten⟩ := ofJson_of_hasItems hitems
  exact ⟨hitems, hreads, hback, (hwritten ledger rfl).2.1 hback⟩

/-- A table with a decimal column that goes by another name for its type. -/
def invoices : Schema :=
  [.table ⟨.text "Invoice",
    [⟨.text "total", .decimal (.text "numeric") (.int 10) (.int 2), []⟩]⟩]

/-- Typed items are written, and what is read is not what was written. -/
theorem invoices_not_given_back :
    (∀ item ∈ invoices, item.IsTyped) ∧
      HasItems (.list (invoices.map Item.toJson)) (invoices.map Item.toJson) ∧
      ofJson (.list (invoices.map Item.toJson)) ≠ .ok invoices := by
  refine ⟨?_, .inl rfl, by decide +kernel⟩
  intro item hitem
  obtain rfl := List.mem_singleton.1 hitem
  refine ⟨⟨_, rfl⟩, fun c hc => ?_⟩
  obtain rfl := List.mem_singleton.1 hc
  exact ⟨⟨_, rfl⟩, trivial⟩

end Schema

end SchemaScribe
