import SchemaScribe.Model.FieldType

/-!
# The items of a schema

The kind of an item, and when an item is among those of a schema that can be found by name.
-/

namespace SchemaScribe

/-- The kind of an item; a value that is no item has none. -/
def Item.kind? : Item → Option ItemKind
  | .table _ => some .table
  | .enumeration _ => some .enumeration
  | .other _ => none

namespace Schema

variable {schema : Schema} {name : Name}

/-- Every item has a text for a name, as in all schemas that are read from documents. -/
def HasTextNames (schema : Schema) : Prop :=
  ∀ item ∈ schema, ∀ name, item.name? = some name → ∃ t, name = .text t

theorem mem_filterMap_table? {t : Table} :
    t ∈ schema.filterMap Item.table? ↔ .table t ∈ schema := by
  rw [List.mem_filterMap]
  constructor
  · rintro ⟨item, hitem, ht⟩
    cases item <;> simp_all [Item.table?]
  · intro ht
    exact ⟨.table t, ht, rfl⟩

theorem mem_filterMap_enumeration? {e : Enumeration} :
    e ∈ schema.filterMap Item.enumeration? ↔ .enumeration e ∈ schema := by
  rw [List.mem_filterMap]
  constructor
  · rintro ⟨item, hitem, he⟩
    cases item <;> simp_all [Item.enumeration?]
  · intro he
    exact ⟨.enumeration e, he, rfl⟩

theorem mem_of_table?_eq_some {t : Table} (h : schema.table? name = some t) : .table t ∈ schema :=
  mem_filterMap_table?.1 (List.mem_of_find?_eq_some h)

theorem mem_of_enumeration?_eq_some {e : Enumeration} (h : schema.enumeration? name = some e) :
    .enumeration e ∈ schema :=
  mem_filterMap_enumeration?.1 (List.mem_of_find?_eq_some h)

/-- Every item can be found by its name, unless a name is a list or an object. -/
theorem checkNames_eq_ok_iff :
    schema.checkNames = .ok () ↔
      ∀ name ∈ schema.filterMap Item.name?, name.isCompound = false := by
  unfold checkNames unusableName?
  cases hfind : (schema.filterMap Item.name?).find? Json.isCompound with
  | none =>
    rw [List.find?_eq_none] at hfind
    simp only [true_iff]
    exact fun name hname => by simpa using hfind name hname
  | some name =>
    have hmem := List.mem_of_find?_eq_some hfind
    have hcompound := List.find?_some hfind
    simp only [reduceCtorEq, false_iff]
    intro hall
    simp [hall name hmem] at hcompound

end Schema

end SchemaScribe
