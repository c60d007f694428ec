import SchemaScribe.Proofs.Compile.Models
import SchemaScribe.Proofs.Layout.FileName
import SchemaScribe.Proofs.Rule.Rendering
import SchemaScribe.Proofs.Schema.Reading

/-!
# Which items have files

Where names, folders and the extension are texts, below an output root that is not empty, no path
can fail, and no rule fails ever. A table has a file then exactly when its columns have their
fields (`tableFile_isOk_iff`), and an enumeration with a list of members has one
(`exists_enumerationFile`).
-/

namespace SchemaScribe.Schema

variable {options : Options} {schema : Schema}

theorem hasTextNames_of_isRead (isRead : ∀ item ∈ schema, item.IsRead) : schema.HasTextNames := by
  intro item hitem name hname
  have hread := isRead item hitem
  cases item with
  | other x => exact absurd hread id
  | table t =>
    obtain rfl := Option.some.inj hname
    exact hread.1
  | enumeration e =>
    obtain rfl := Option.some.inj hname
    exact hread.1

theorem checkNames_of_hasTextNames (names : schema.HasTextNames) : schema.checkNames = .ok () := by
  refine checkNames_eq_ok_iff.2 fun name hname => ?_
  obtain ⟨item, hitem, hsome⟩ := List.mem_filterMap.1 hname
  obtain ⟨t, rfl⟩ := names item hitem name hsome
  rfl

/-- The rules of a table's fields have their lines, in both styles. -/
theorem exists_bodyLines_of_fields {table : Table} {fields : List Field}
    (hfields : schema.fieldsOfTable options table = .ok fields) :
    ∃ body, TypeScript.bodyLines options.annotated fields = .ok body := by
  obtain ⟨decoratorsOf, hdecorators⟩ := exists_decorators_of_fieldsOfTable hfields
  exact ⟨_, bodyLines_of_fieldsOfTable hfields hdecorators⟩

/-- Whatever the fields of a table refer to has a path from the table. -/
theorem exists_importLines_of_fields (layout : options.HasTextLayout) (cwd : Path.Location)
    (names : schema.HasTextNames) {table : Table} (htable : .table table ∈ schema)
    {fields : List Field} (hfields : schema.fieldsOfTable options table = .ok fields) :
    ∃ lines, importLines cwd options table.name (imported [(.table, table.name.key)] fields) =
      .ok lines := by
  refine importLines_isOk_iff.2 ?_
  rintro ⟨kind, other⟩ hother
  obtain ⟨field, hfield, hitem⟩ := exists_field_of_mem_imported hother
  obtain ⟨target, rfl⟩ := (namesItem_of_mem_fields hfields hfield hitem).exists_text names
  obtain ⟨name, hname⟩ := names _ htable _ rfl
  obtain ⟨path, -, hpath, -⟩ := layout.exists_fileName .table name
  obtain ⟨place, -, hplace, -⟩ := layout.exists_fileName kind target
  rw [hname]
  exact ⟨_, bind_eq_ok_iff.2 ⟨path, hpath, bind_eq_ok_iff.2 ⟨place, hplace, rfl⟩⟩⟩

/-- **A table has a file** exactly when its columns have their fields. -/
theorem tableFile_isOk_iff (layout : options.HasTextLayout) (cwd : Path.Location)
    (names : schema.HasTextNames) {table : Table} (htable : .table table ∈ schema) :
    (∃ file, schema.tableFile cwd options table = .ok file) ↔
      ∃ fields, schema.fieldsOfTable options table = .ok fields := by
  constructor
  · rintro ⟨file, hfile⟩
    obtain ⟨fields, -, -, -, hfields, -⟩ := tableFile_eq_ok_iff.1 hfile
    exact ⟨fields, hfields⟩
  · rintro ⟨fields, hfields⟩
    obtain ⟨name, hname⟩ := names _ htable _ rfl
    obtain ⟨body, hbody⟩ := exists_bodyLines_of_fields hfields
    obtain ⟨lines, hlines⟩ := exists_importLines_of_fields layout cwd names htable hfields
    obtain ⟨-, path, -, hpath⟩ := layout.exists_fileName .table name
    have hscalar : table.name.isCompound = false := by
      rw [hname]
      rfl
    rw [← hname] at hpath
    exact ⟨_, tableFile_eq_ok_iff.2
      ⟨fields, body, lines, path, hfields, hbody, hscalar, hlines, hpath, rfl⟩⟩

/-- An enumeration with a list of members has a file. -/
theorem exists_enumerationFile (layout : options.HasTextLayout) {e : Enumeration}
    (isRead : (Item.enumeration e).IsRead) : ∃ file, enumerationFile options e = .ok file := by
  obtain ⟨⟨name, hname⟩, members, hmembers⟩ := isRead
  obtain ⟨-, path, -, hpath⟩ := layout.exists_fileName .enumeration name
  rw [← hname] at hpath
  exact ⟨_, enumerationFile_eq_ok_iff.2 ⟨members, path, by rw [hmembers]; rfl, hpath, rfl⟩⟩

end SchemaScribe.Schema
