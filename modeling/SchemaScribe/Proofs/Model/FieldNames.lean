import Mathlib.Data.List.Nodup
import Mathlib.Data.List.Perm.Basic
import SchemaScribe.Proofs.Model.Field

/-!
# The names of fields

The names of the fields of a model come from its columns (`names_of_fieldsOfTable`): each column
gives its own name, and a relation another one in front, the prefix of the options and its name.

No two names of columns are the same exactly when no two names of fields are, but for one case: a
column that is called like the row of a relation (`nodup_names_iff`). Two relations are never in
each other's way, as one prefix stands in front of both names.
-/

namespace SchemaScribe

/-- The name for the row that a relation refers to; other columns have none. -/
def Options.referenceNames (options : Options) (column : Column) : List Text :=
  match column.type with
  | .relation .. => [options.relationPrefix.toText ++ column.name.toText]
  | _ => []

/-- The names of the fields of a column. -/
def Options.fieldNames (options : Options) (column : Column) : List Text :=
  options.referenceNames column ++ [column.name.toText]

variable {options : Options} {schema : Schema} {table : Table} {column : Column}
  {columns : List Column} {fields : List Field}

theorem Options.mem_referenceNames {name : Text} : name ∈ options.referenceNames column ↔
    column.type.IsRelation ∧ name = options.relationPrefix.toText ++ column.name.toText := by
  unfold referenceNames ColumnType.IsRelation
  split
  · next type target key htype => simp [htype]
  · next hnone => simpa using fun type target key htype => absurd htype (hnone type target key)

/-- The names for the rows of relations are names of columns behind the prefix. -/
theorem Options.referenceNames_sublist (options : Options) (columns : List Column) :
    (columns.flatMap options.referenceNames).Sublist
      ((columns.map fun c => c.name.toText).map (options.relationPrefix.toText ++ ·)) := by
  induction columns with
  | nil => exact List.Sublist.slnil
  | cons c rest ih =>
    rw [List.flatMap_cons, List.map_cons, List.map_cons, ← List.singleton_append]
    refine List.Sublist.append ?_ ih
    unfold referenceNames
    split
    · exact List.Sublist.refl _
    · exact List.nil_sublist _

namespace Schema

theorem names_of_fieldsOf (h : schema.fieldsOf options table column = .ok fields) :
    fields.map (fun f => f.name.toText) = options.fieldNames column := by
  by_cases hrelation : column.type.IsRelation
  · obtain ⟨name, target, key, htype⟩ := hrelation
    obtain ⟨resolved, found, -, -, rfl⟩ := (fieldsOf_relation_eq_ok_iff htype).1 h
    rw [Options.fieldNames, Options.referenceNames, htype]
    rfl
  · obtain ⟨found, -, rfl⟩ := (fieldsOf_eq_ok_iff hrelation).1 h
    have hnone : options.referenceNames column = [] :=
      List.eq_nil_iff_forall_not_mem.2 fun name hname =>
        hrelation (Options.mem_referenceNames.1 hname).1
    rw [Options.fieldNames, hnone]
    rfl

/-- The names of fields are those of each column in turn. -/
theorem names_of_fieldsOfColumns (h : schema.fieldsOfColumns options table columns = .ok fields) :
    fields.map (fun f => f.name.toText) = columns.flatMap options.fieldNames := by
  induction columns generalizing fields with
  | nil =>
    obtain rfl := Except.ok.inj h
    rfl
  | cons c rest ih =>
    simp only [fieldsOfColumns, bind_eq_ok_iff, pure_eq_ok_iff] at h
    obtain ⟨group, hgroup, tail, htail, rfl⟩ := h
    rw [List.map_append, names_of_fieldsOf hgroup, ih htail, List.flatMap_cons]

end Schema

/-- Names of fields are all different exactly when those of the columns are, and none of them is
that for the row of a relation. -/
theorem Options.nodup_fieldNames_iff :
    (columns.flatMap options.fieldNames).Nodup ↔
      (columns.map fun c => c.name.toText).Nodup ∧ ∀ c ∈ columns, c.type.IsRelation →
        ∀ d ∈ columns, d.name.toText ≠ options.relationPrefix.toText ++ c.name.toText := by
  have hperm : (columns.flatMap options.referenceNames ++ columns.map fun c => c.name.toText).Perm
      (columns.flatMap options.fieldNames) := by
    rw [List.map_eq_flatMap]
    exact List.flatMap_append_perm columns _ _
  rw [← hperm.nodup_iff, List.nodup_append']
  constructor
  · rintro ⟨-, hcolumns, hdisjoint⟩
    refine ⟨hcolumns, fun c hc hrelation d hd heq => ?_⟩
    have hreference : d.name.toText ∈ columns.flatMap options.referenceNames :=
      List.mem_flatMap.2 ⟨c, hc, mem_referenceNames.2 ⟨hrelation, heq⟩⟩
    exact hdisjoint hreference (List.mem_map_of_mem (f := fun c : Column => c.name.toText) hd)
  · rintro ⟨hcolumns, hall⟩
    refine ⟨?_, hcolumns, fun name hreference hcolumn => ?_⟩
    · exact (hcolumns.map (List.append_right_injective _)).sublist
        (options.referenceNames_sublist columns)
    · obtain ⟨c, hc, hname⟩ := List.mem_flatMap.1 hreference
      obtain ⟨hrelation, rfl⟩ := mem_referenceNames.1 hname
      obtain ⟨d, hd, heq⟩ := List.mem_map.1 hcolumn
      exact hall c hc hrelation d hd heq

namespace Schema

/-- **When names of fields clash.** If the columns of a table have their fields, the names of the
fields are those that the columns give, in order; and they are all different exactly when the names
of the columns are and no column is called like the row of a relation, which is the prefix and the
name of the relation. -/
theorem nodup_names_iff (h : schema.fieldsOfTable options table = .ok fields) :
    fields.map (fun f => f.name.toText) = table.columns.flatMap options.fieldNames ∧
      ((fields.map fun f => f.name.toText).Nodup ↔
        (table.columns.map fun c => c.name.toText).Nodup ∧
          ∀ c ∈ table.columns, c.type.IsRelation → ∀ d ∈ table.columns,
            d.name.toText ≠ options.relationPrefix.toText ++ c.name.toText) := by
  have hnames := names_of_fieldsOfColumns h
  exact ⟨hnames, hnames ▸ Options.nodup_fieldNames_iff⟩

/-- Staff with a role, and a note on it that is called like the row of the role. -/
def staff : Table :=
  ⟨.text "Staff",
    [⟨.text "role", .relation .null (.text "Role") (.text "id"), []⟩,
      ⟨.text "otm_role", .common (.text "text"), []⟩]⟩

/-- Staff and roles. -/
def office : Schema :=
  [.table staff, .table ⟨.text "Role", [⟨.text "id", .common (.text "int"), []⟩]⟩]

/-- With another prefix the names of the fields are all different. -/
theorem nodup_names_iff_office :
    ∃ fields, office.fieldsOfTable { relationPrefix := .text "row_" } staff = .ok fields ∧
      fields.map (fun f => f.name.toText) =
        [Text.ofString "row_role", Text.ofString "role", Text.ofString "otm_role"] ∧
      (fields.map fun f => f.name.toText).Nodup := by
  obtain ⟨fields, hfields⟩ := isOk_iff.1 (by decide +kernel :
    (office.fieldsOfTable { relationPrefix := .text "row_" } staff).isOk = true)
  obtain ⟨hnames, hnodup⟩ := nodup_names_iff hfields
  refine ⟨fields, hfields, hnames.trans (by decide), hnodup.2 ⟨by decide, ?_⟩⟩
  intro c hc _ d hd
  have hall : ∀ c ∈ staff.columns, ∀ d ∈ staff.columns,
      d.name.toText ≠ Text.ofString "row_" ++ c.name.toText := by decide
  exact hall c hc d hd

/-- With the prefix that there is by default, two fields have one name, and no two columns. -/
theorem staff_names_clash :
    (staff.columns.map fun c => c.name.toText).Nodup ∧
      ∃ fields, office.fieldsOfTable {} staff = .ok fields ∧
        fields.map (fun f => f.name.toText) =
          [Text.ofString "otm_role", Text.ofString "role", Text.ofString "otm_role"] ∧
        ¬ (fields.map fun f => f.name.toText).Nodup := by
  obtain ⟨fields, hfields⟩ := isOk_iff.1
    (by decide +kernel : (office.fieldsOfTable {} staff).isOk = true)
  have hnames : fields.map (fun f => f.name.toText) =
      [Text.ofString "otm_role", Text.ofString "role", Text.ofString "otm_role"] :=
    (names_of_fieldsOfColumns hfields).trans (by decide)
  refine ⟨by decide, fields, hfields, hnames, ?_⟩
  rw [hnames]
  decide

end Schema

end SchemaScribe
