import SchemaScribe.Proofs.Schema.Grammar

/-!
# What documents are read as

An item list that is read from a document holds tables and enumerations only, and all names and
references in it are texts (`isRead_of_ofJson`). Only lists that are built by hand hold anything
else.
-/

namespace SchemaScribe

/-- A type that the reader gives: a plain one is known, and references are texts. -/
def ColumnType.IsRead : ColumnType → Prop
  | .common name => ∃ t, name = .text t ∧ (SqlType.ofName? t).isSome
  | .decimal .. | .chars .. => True
  | .enumeration _ members => ∃ t, members = .text t
  | .relation _ table key => (∃ t, table = .text t) ∧ ∃ t, key = .text t
  | .other _ => False

/-- A column that the reader gives. -/
structure Column.IsRead (column : Column) : Prop where
  name : ∃ t, column.name = .text t
  type : column.type.IsRead

/-- An item that the reader gives. -/
def Item.IsRead : Item → Prop
  | .table t => (∃ name, t.name = .text name) ∧ ∀ c ∈ t.columns, c.IsRead
  | .enumeration e => (∃ name, e.name = .text name) ∧ ∃ members, e.members = .list members
  | .other _ => False

namespace Schema

theorem SpellsType.isRead {members : List (Text × Json)} {type : ColumnType}
    (h : SpellsType members type) : type.IsRead := by
  cases h with
  | common hkind htype known => exact ⟨_, rfl, known⟩
  | decimal => trivial
  | chars => trivial
  | enumeration => exact ⟨_, rfl⟩
  | relation => exact ⟨⟨_, rfl⟩, _, rfl⟩

theorem SpellsColumn.isRead {x : Json} {column : Column} (h : SpellsColumn x column) :
    column.IsRead := by
  obtain ⟨hname, hobject, htype, hattributes⟩ := h
  exact ⟨⟨_, rfl⟩, htype.isRead⟩

theorem SpellsItem.isRead {x : Json} {item : Item} (h : SpellsItem x item) : item.IsRead := by
  cases h with
  | table hname htype hlist hcolumns =>
    refine ⟨⟨_, rfl⟩, fun c hc => ?_⟩
    obtain ⟨y, hy⟩ := exists_of_mem_forall₂ hcolumns hc
    exact hy.isRead
  | enumeration hname htype hlist htexts => exact ⟨⟨_, rfl⟩, _, rfl⟩

/-- **What documents are read as**: tables and enumerations, with texts for names. -/
theorem isRead_of_ofJson {document : Json} {schema : Schema} (h : ofJson document = .ok schema) :
    ∀ item ∈ schema, item.IsRead := by
  obtain ⟨elements, -, hitems⟩ := bind_eq_ok_iff.1 h
  intro item hitem
  obtain ⟨x, hx⟩ := exists_of_mem_forall₂ (gives_readItem.readAll_eq_ok_iff.1 hitems) hitem
  exact hx.isRead

end Schema

end SchemaScribe
