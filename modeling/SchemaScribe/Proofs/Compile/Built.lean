import SchemaScribe.Compile
import SchemaScribe.Proofs.Schema.Items
import SchemaScribe.Proofs.Success

/-!
# What is built from an item

When the file of an item exists, and what it is made of: `tableFile_eq_ok_iff` and
`enumerationFile_eq_ok_iff` list the parts. A `Built` is an item together with its file.
-/

namespace SchemaScribe

namespace Schema

variable {cwd : Path.Location} {options : Options} {schema : Schema}

theorem tableFile_eq_ok_iff {table : Table} {file : ModuleFile} :
    schema.tableFile cwd options table = .ok file ↔ ∃ fields body imports path,
      schema.fieldsOfTable options table = .ok fields ∧
      TypeScript.bodyLines options.annotated fields = .ok body ∧
      table.name.isCompound = false ∧
      importLines cwd options table.name (imported [(.table, table.name.key)] fields) =
        .ok imports ∧
      options.fileName .table table.name = .ok path ∧
      file = ⟨path, TypeScript.tableText options.annotated options.indent.toText imports
        table.name body⟩ := by
  simp only [tableFile, bind_eq_ok_iff, mapError_eq_ok_iff]
  constructor
  · rintro ⟨fields, hfields, body, hbody, h⟩
    split at h
    · obtain ⟨_, herror, -⟩ := bind_eq_ok_iff.1 h
      simp at herror
    · next hname =>
      obtain ⟨imports, himports, h⟩ := bind_eq_ok_iff.1 h
      obtain ⟨path, hpath, h⟩ := bind_eq_ok_iff.1 h
      exact ⟨fields, body, imports, path, hfields, hbody, by simpa using hname,
        mapError_eq_ok_iff.1 himports, mapError_eq_ok_iff.1 hpath, (pure_eq_ok_iff.1 h).symm⟩
  · rintro ⟨fields, body, imports, path, hfields, hbody, hname, himports, hpath, rfl⟩
    refine ⟨fields, hfields, body, hbody, ?_⟩
    rw [if_neg (by simp [hname])]
    exact bind_eq_ok_iff.2 ⟨imports, mapError_eq_ok_iff.2 himports,
      bind_eq_ok_iff.2 ⟨path, mapError_eq_ok_iff.2 hpath, pure_eq_ok_iff.2 rfl⟩⟩

theorem enumerationFile_eq_ok_iff {e : Enumeration} {file : ModuleFile} :
    enumerationFile options e = .ok file ↔ ∃ members path,
      e.members.elements? = some members ∧ options.fileName .enumeration e.name = .ok path ∧
      file = ⟨path, TypeScript.enumerationText options.indent.toText e.name members⟩ := by
  unfold enumerationFile
  split
  · next h => simp [h]
  · next members h =>
    simp only [bind_eq_ok_iff, mapError_eq_ok_iff, pure_eq_ok_iff, h, Option.some.injEq]
    constructor
    · rintro ⟨path, hpath, rfl⟩
      exact ⟨members, path, rfl, hpath, rfl⟩
    · rintro ⟨_, path, rfl, hpath, rfl⟩
      exact ⟨path, hpath, rfl⟩

/-- An item is built when its file is: one that is no item never is. -/
theorem build_eq_ok_iff {item : Item} {kind : ItemKind} {name : Name} {file : ModuleFile} :
    schema.build cwd options item = .ok (kind, name, file) ↔
      item.kind? = some kind ∧ item.name? = some name ∧
        match item with
        | .table t => schema.tableFile cwd options t = .ok file
        | .enumeration e => enumerationFile options e = .ok file
        | .other _ => False := by
  cases item with
  | other x => simp [build, Item.kind?]
  | table t =>
    simp only [build, bind_eq_ok_iff, pure_eq_ok_iff, Item.kind?, Item.name?, Prod.mk.injEq,
      Option.some.injEq]
    constructor
    · rintro ⟨f, hf, hkind, hname, rfl⟩
      exact ⟨hkind, hname, hf⟩
    · rintro ⟨hkind, hname, hf⟩
      exact ⟨file, hf, hkind, hname, rfl⟩
  | enumeration e =>
    simp only [build, bind_eq_ok_iff, pure_eq_ok_iff, Item.kind?, Item.name?, Prod.mk.injEq,
      Option.some.injEq]
    constructor
    · rintro ⟨f, hf, hkind, hname, rfl⟩
      exact ⟨hkind, hname, hf⟩
    · rintro ⟨hkind, hname, hf⟩
      exact ⟨file, hf, hkind, hname, rfl⟩

/-- An item is not built when its file is not: one that is no item never is. -/
theorem build_eq_error_iff {item : Item} {e : CompileError} :
    schema.build cwd options item = .error e ↔
      match item with
      | .table t => schema.tableFile cwd options t = .error e
      | .enumeration m => enumerationFile options m = .error e
      | .other x => e = .notAnItem x := by
  cases item with
  | other x => simp [build, eq_comm]
  | table t => simp [build, bind_eq_error_iff, pure, Except.pure]
  | enumeration m => simp [build, bind_eq_error_iff, pure, Except.pure]

/-- The path of the file of an item is that of its kind and name. -/
theorem fileName_of_build {item : Item} {kind : ItemKind} {name : Name} {file : ModuleFile}
    (h : schema.build cwd options item = .ok (kind, name, file)) :
    options.fileName kind name = .ok file.name := by
  obtain ⟨hkind, hname, hfile⟩ := build_eq_ok_iff.1 h
  cases item with
  | other x => exact absurd hfile id
  | table t =>
    obtain ⟨_, _, _, path, -, -, -, -, hpath, rfl⟩ := tableFile_eq_ok_iff.1 hfile
    obtain rfl := Option.some.inj hkind
    obtain rfl := Option.some.inj hname
    exact hpath
  | enumeration e =>
    obtain ⟨_, path, -, hpath, rfl⟩ := enumerationFile_eq_ok_iff.1 hfile
    obtain rfl := Option.some.inj hkind
    obtain rfl := Option.some.inj hname
    exact hpath

end Schema

/-- An item of a schema with what is built from it. -/
structure Built (cwd : Path.Location) (options : Options) (schema : Schema) where
  item : Item
  kind : ItemKind
  name : Name
  file : ModuleFile
  build_eq : schema.build cwd options item = .ok (kind, name, file)

namespace Built

variable {cwd : Path.Location} {options : Options} {schema : Schema}

/-- What is built from an item is decided by the item. -/
theorem eq_of_item_eq {b c : Built cwd options schema} (h : b.item = c.item) : b = c := by
  obtain ⟨item, kind, name, file, hb⟩ := b
  obtain ⟨_, kind', name', file', hc⟩ := c
  obtain rfl : item = _ := h
  simpa using hb.symm.trans hc

theorem kind?_item (b : Built cwd options schema) : b.item.kind? = some b.kind :=
  (Schema.build_eq_ok_iff.1 b.build_eq).1

theorem name?_item (b : Built cwd options schema) : b.item.name? = some b.name :=
  (Schema.build_eq_ok_iff.1 b.build_eq).2.1

/-- What is built from a table is its file. -/
theorem tableFile_eq (b : Built cwd options schema) {t : Table} (h : b.item = .table t) :
    schema.tableFile cwd options t = .ok b.file := by
  have hbuild := (Schema.build_eq_ok_iff.1 b.build_eq).2.2
  rwa [h] at hbuild

/-- What is built for a schema is built from its items. -/
theorem item_mem {built : List (Built cwd options schema)} (hitems : built.map item = schema)
    {b : Built cwd options schema} (hb : b ∈ built) : b.item ∈ schema := by
  have hmem := List.mem_map_of_mem (f := item) hb
  rwa [hitems] at hmem

theorem exists_table (b : Built cwd options schema) (h : b.kind = .table) :
    ∃ t, b.item = .table t ∧ t.name = b.name := by
  have hkind := b.kind?_item
  have hname := b.name?_item
  cases hitem : b.item with
  | table t =>
    rw [hitem] at hname
    exact ⟨t, rfl, Option.some.inj hname⟩
  | _ => simp [hitem, Item.kind?, h] at hkind

theorem exists_enumeration (b : Built cwd options schema) (h : b.kind = .enumeration) :
    ∃ e, b.item = .enumeration e ∧ e.name = b.name := by
  have hkind := b.kind?_item
  have hname := b.name?_item
  cases hitem : b.item with
  | enumeration e =>
    rw [hitem] at hname
    exact ⟨e, rfl, Option.some.inj hname⟩
  | _ => simp [hitem, Item.kind?, h] at hkind

theorem fileName_eq (b : Built cwd options schema) :
    options.fileName b.kind b.name = .ok b.file.name :=
  Schema.fileName_of_build b.build_eq

end Built

end SchemaScribe
