import SchemaScribe.Model.Field
import SchemaScribe.Proofs.Model.Chain

/-!
# When columns have fields

A column has its fields exactly when it has a type (`fieldsOf_isOk_iff`), and the last of them has
the name of the column and that type (`exists_fieldsOf_of_typeOf`). A table has its fields exactly
when all columns have theirs (`fieldsOfColumns_isOk_iff`).
-/

namespace SchemaScribe.Schema

variable {options : Options} {schema : Schema} {table : Table} {column : Column}

/-- The fields of a relation: the row that it refers to, and the value by which it does. -/
theorem fieldsOf_relation_eq_ok_iff {name target key : Name} {fields : List Field}
    (h : column.type = .relation name target key) :
    schema.fieldsOf options table column = .ok fields ↔ ∃ resolved found,
      schema.targetOf target key table.name column.name = .ok resolved ∧
      schema.typeOf column.type table.name column.name = .ok found ∧
      fields = [⟨options.referenceName column, .table resolved.table.name, column.isRequired, []⟩,
        ⟨column.name, found, column.isRequired, []⟩] := by
  unfold fieldsOf
  split
  · next name' target' key' h' =>
    obtain ⟨rfl, rfl, rfl⟩ : name' = name ∧ target' = target ∧ key' = key := by
      simpa using h'.symm.trans h
    simp only [bind_eq_ok_iff, pure_eq_ok_iff]
    constructor
    · rintro ⟨resolved, hresolved, found, hfound, rfl⟩
      exact ⟨resolved, found, hresolved, hfound, rfl⟩
    · rintro ⟨resolved, found, hresolved, hfound, rfl⟩
      exact ⟨resolved, hresolved, found, hfound, rfl⟩
  · next hne => exact absurd h (hne _ _ _)

/-- The field of a column that is no relation. -/
theorem fieldsOf_eq_ok_iff {fields : List Field} (h : ¬ column.type.IsRelation) :
    schema.fieldsOf options table column = .ok fields ↔ ∃ found,
      schema.typeOf column.type table.name column.name = .ok found ∧
      fields = [⟨column.name, found, column.isRequired, options.rulesFor column⟩] := by
  unfold fieldsOf
  split
  · next name target key h' => exact absurd ⟨name, target, key, h'⟩ h
  · simp only [bind_eq_ok_iff, pure_eq_ok_iff]
    exact exists_congr fun found => and_congr_right fun _ => eq_comm

/-- A column that has a type has its fields, and the last of them holds its value. -/
theorem exists_fieldsOf_of_typeOf (options : Options) {found : FieldType}
    (h : schema.typeOf column.type table.name column.name = .ok found) :
    ∃ before field, schema.fieldsOf options table column = .ok (before ++ [field]) ∧
      field.name = column.name ∧ field.type = found := by
  by_cases hrelation : column.type.IsRelation
  · obtain ⟨name, target, key, htype⟩ := hrelation
    obtain ⟨resolved, hresolved, -⟩ := exists_typeOf_target (htype ▸ h)
    exact ⟨[_], _, (fieldsOf_relation_eq_ok_iff htype).2 ⟨resolved, found, hresolved, h, rfl⟩,
      rfl, rfl⟩
  · exact ⟨[], _, (fieldsOf_eq_ok_iff hrelation).2 ⟨found, h, rfl⟩, rfl, rfl⟩

/-- A column has its fields exactly when it has a type. -/
theorem fieldsOf_isOk_iff :
    (∃ fields, schema.fieldsOf options table column = .ok fields) ↔
      ∃ found, schema.typeOf column.type table.name column.name = .ok found := by
  constructor
  · rintro ⟨fields, hfields⟩
    by_cases hrelation : column.type.IsRelation
    · obtain ⟨name, target, key, htype⟩ := hrelation
      obtain ⟨-, found, -, hfound, -⟩ := (fieldsOf_relation_eq_ok_iff htype).1 hfields
      exact ⟨found, hfound⟩
    · obtain ⟨found, hfound, -⟩ := (fieldsOf_eq_ok_iff hrelation).1 hfields
      exact ⟨found, hfound⟩
  · rintro ⟨found, hfound⟩
    obtain ⟨before, field, hfields, -, -⟩ := exists_fieldsOf_of_typeOf options hfound
    exact ⟨_, hfields⟩

/-- What keeps a column from having fields keeps it from having a type. -/
theorem fieldsOf_eq_error_iff {e : ReferenceError} :
    schema.fieldsOf options table column = .error e ↔
      schema.typeOf column.type table.name column.name = .error e := by
  unfold fieldsOf
  split
  · next name target key htype =>
    rw [htype, typeOf, typeAlong_relation, if_neg List.not_mem_nil]
    cases schema.targetOf target key table.name column.name <;>
      simp [bind_eq_error_iff, pure, Except.pure]
  · simp [bind_eq_error_iff, pure, Except.pure]

/-- A table has its fields exactly when all its columns have theirs. -/
theorem fieldsOfColumns_isOk_iff {columns : List Column} :
    (∃ fields, schema.fieldsOfColumns options table columns = .ok fields) ↔
      ∀ c ∈ columns, ∃ group, schema.fieldsOf options table c = .ok group := by
  induction columns with
  | nil => simp [fieldsOfColumns]
  | cons c rest ih =>
    simp only [fieldsOfColumns, bind_eq_ok_iff, pure_eq_ok_iff, List.forall_mem_cons, ← ih]
    constructor
    · rintro ⟨_, group, hgroup, tail, htail, -⟩
      exact ⟨⟨group, hgroup⟩, tail, htail⟩
    · rintro ⟨⟨group, hgroup⟩, tail, htail⟩
      exact ⟨_, group, hgroup, tail, htail, rfl⟩

/-- The fields of a table are the fields of its columns. -/
theorem mem_fieldsOfColumns {columns : List Column} {fields : List Field} {field : Field}
    (h : schema.fieldsOfColumns options table columns = .ok fields) :
    field ∈ fields ↔
      ∃ c ∈ columns, ∃ group, schema.fieldsOf options table c = .ok group ∧ field ∈ group := by
  induction columns generalizing fields with
  | nil =>
    obtain rfl := Except.ok.inj h
    simp
  | cons c rest ih =>
    simp only [fieldsOfColumns, bind_eq_ok_iff, pure_eq_ok_iff] at h
    obtain ⟨group, hgroup, tail, htail, rfl⟩ := h
    rw [List.mem_append, ih htail]
    constructor
    · rintro (hfield | ⟨d, hd, other, hother, hfield⟩)
      · exact ⟨c, List.mem_cons_self, group, hgroup, hfield⟩
      · exact ⟨d, List.mem_cons_of_mem _ hd, other, hother, hfield⟩
    · rintro ⟨d, hd, other, hother, hfield⟩
      rcases List.mem_cons.1 hd with rfl | hd
      · obtain rfl := Except.ok.inj (hgroup.symm.trans hother)
        exact .inl hfield
      · exact .inr ⟨d, hd, other, hother, hfield⟩

end SchemaScribe.Schema
