import SchemaScribe.Proofs.Compile.Imports
import SchemaScribe.Proofs.Occurrence
import SchemaScribe.Proofs.Rule.Rendering

/-!
# The imports of a model are those that it needs

A model imports the items that the types of its fields refer to, each once, in the order in which
they come up, and the table itself never (`imported_eq`). These are all items that the text behind
the imports mentions, also in the decorators, and there are no others (`imports_exact`).

Items are told apart by their kinds and the keys of their names. Since a type refers to an item by
the name that the item has, items that are not told apart are spelled alike, and one import does
for all fields that refer to the item.
-/

namespace SchemaScribe

/-- The item that is imported. -/
def Import.item (i : Import) : ItemKind × Name := (i.kind, i.name)

/-- A type that refers to an item goes by the name of the item. -/
theorem TypeScript.typeName_of_item? {type : FieldType} {item : ItemKind × Name}
    (h : type.item? = some item) : typeName type = item.2 := by
  cases type with
  | scalar category => cases h
  | enumeration name | table name =>
    obtain rfl := Option.some.inj h
    rfl

theorem FieldType.item?_eq_enumeration_iff {type : FieldType} {name : Name} :
    type.item? = some (.enumeration, name) ↔ type = .enumeration name := by
  cases type <;> simp [item?]

theorem FieldType.item?_eq_table_iff {type : FieldType} {name : Name} :
    type.item? = some (.table, name) ↔ type = .table name := by
  cases type <;> simp [item?]

namespace Schema

variable {cwd : Path.Location} {options : Options} {schema : Schema} {table : Table}
  {file : ModuleFile} {fields : List Field} {imports : List Import}
  {decoratorsOf : Field → List Text}

/-! ## First occurrences -/

/-- What an item is told from others by. -/
def importKey (item : ItemKind × Name) : ItemKind × Json := (item.1, item.2.key)

/-- The items that the types of fields refer to, in order. -/
def itemsOf (fields : List Field) : List (ItemKind × Name) :=
  fields.filterMap fun field => field.type.item?

theorem mem_itemsOf {item : ItemKind × Name} :
    item ∈ itemsOf fields ↔ ∃ field ∈ fields, field.type.item? = some item := List.mem_filterMap

theorem itemsOf_cons_of_none {field : Field} (h : field.type.item? = none) :
    itemsOf (field :: fields) = itemsOf fields := List.filterMap_cons_none h

theorem itemsOf_cons_of_some {field : Field} {item : ItemKind × Name}
    (h : field.type.item? = some item) : itemsOf (field :: fields) = item :: itemsOf fields :=
  List.filterMap_cons_some h

/-- **Imports are first occurrences**, of the items that were not seen before. -/
theorem imported_eq (seen : List (ItemKind × Json)) (fields : List Field) :
    imported seen fields = (firstsBy importKey (itemsOf fields)).filter (importKey · ∉ seen) := by
  induction fields generalizing seen with
  | nil => rfl
  | cons field rest ih =>
    rw [imported]
    split
    · next hnone => rw [ih, itemsOf_cons_of_none hnone]
    · next kind name hsome =>
      have hkey : importKey (kind, name) = (kind, name.key) := rfl
      rw [itemsOf_cons_of_some hsome, firstsBy, hkey]
      split
      · next hseen =>
        rw [List.filter_cons_of_neg (by simpa [hkey] using hseen), List.filter_filter, ih]
        refine List.filter_congr fun item _ => ?_
        -- Whatever is new is not the item at hand, which was seen.
        by_cases hitem : importKey item ∈ seen
        · simp [hitem]
        · have hne : importKey item ≠ (kind, name.key) := fun heq => hitem (heq ▸ hseen)
          simp [hitem, hne]
      · next hnew =>
        rw [List.filter_cons_of_pos (by simpa [hkey] using hnew), List.filter_filter, ih]
        refine congrArg _ (List.filter_congr fun item _ => ?_)
        simp [not_or, Bool.and_comm]

/-! ## Models -/

/-- A file is the model of a table: the imports, and then for each field its decorators and its
declaration. -/
structure IsModel (cwd : Path.Location) (options : Options) (schema : Schema) (table : Table)
    (file : ModuleFile) (fields : List Field) (imports : List Import)
    (decoratorsOf : Field → List Text) : Prop where
  fields_eq : schema.fieldsOfTable options table = .ok fields
  imports_eq : imports.map Import.item = imported [importKey (.table, table.name)] fields
  specifiers : ∀ i ∈ imports,
    options.importPath cwd .table table.name i.kind i.name = .ok i.specifier
  decorators_eq : ∀ field ∈ fields, TypeScript.decorators field.rules = .ok (decoratorsOf field)
  content_eq : file.content = TypeScript.tableText options.annotated options.indent.toText
    (imports.map Import.line) table.name
    (fields.flatMap fun field =>
      decoratorsOf field ++ [TypeScript.declaration options.annotated field])

/-- The file of a table is its model. -/
theorem exists_isModel (h : schema.tableFile cwd options table = .ok file) :
    ∃ fields imports decoratorsOf,
      IsModel cwd options schema table file fields imports decoratorsOf := by
  obtain ⟨fields, body, lines, path, hfields, hbody, -, hlines, -, rfl⟩ :=
    tableFile_eq_ok_iff.1 h
  obtain ⟨imports, rfl, himports, hspecifiers⟩ := exists_imports hlines
  obtain ⟨decoratorsOf, hdecorators⟩ := exists_decorators_of_fieldsOfTable hfields
  obtain rfl := Except.ok.inj (hbody.symm.trans (bodyLines_of_fieldsOfTable hfields hdecorators))
  exact ⟨fields, imports, decoratorsOf, hfields, himports, hspecifiers, hdecorators, rfl⟩

/-! ## What a model needs -/

/-- The imports are those that the fields of a table with their decorators need, and no more. -/
structure AreNeeded (schema : Schema) (table : Table) (fields : List Field)
    (decoratorsOf : Field → List Text) (imports : List Import) : Prop where
  /-- They are the first occurrences of the items that types refer to, without the table itself. -/
  firsts : imports.map Import.item =
    (firstsBy importKey (itemsOf fields)).filter (importKey · ≠ importKey (.table, table.name))
  /-- Nothing is imported twice. -/
  once : (imports.map fun i => importKey i.item).Nodup
  /-- Every name of a type that is no scalar is that of the table or is imported. -/
  declared : ∀ field ∈ fields, ∀ item, field.type.item? = some item →
    (importKey item = importKey (.table, table.name) ∧
        (schema.HasTextNames → TypeScript.typeName field.type = table.name)) ∨
      ∃ i ∈ imports, i.item = item ∧ i.name = TypeScript.typeName field.type
  /-- Every enumeration that a decorator checks for is imported. -/
  checked : ∀ field ∈ fields, ∀ line ∈ decoratorsOf field, Rule.memberCall <+: line →
    ∃ enumeration, Rule.ChecksMember enumeration line ∧
      ∃ i ∈ imports, importKey i.item = importKey (.enumeration, enumeration) ∧
        (schema.HasTextNames → i.name = enumeration)
  /-- Every import is the type of a field. -/
  used : ∀ i ∈ imports, ∃ field ∈ fields, field.type.item? = some i.item ∧
    TypeScript.typeName field.type = i.name
  /-- There are no imports exactly when all types are scalars or the table itself. -/
  none_iff : imports = [] ↔ ∀ field ∈ fields, ∀ item, field.type.item? = some item →
    importKey item = importKey (.table, table.name)

/-- An item that a field refers to is imported, under the very name by which the field refers to it,
if it is not the table. -/
theorem IsModel.exists_import
    (model : IsModel cwd options schema table file fields imports decoratorsOf) {field : Field}
    (hfield : field ∈ fields) {item : ItemKind × Name} (hitem : field.type.item? = some item)
    (hother : importKey item ≠ importKey (.table, table.name)) : ∃ i ∈ imports, i.item = item := by
  have hthere : ∃ other ∈ itemsOf fields, importKey other = importKey item :=
    ⟨item, mem_itemsOf.2 ⟨field, hfield, hitem⟩, rfl⟩
  obtain ⟨first, hfirst, hkey⟩ := exists_mem_firstsBy hthere
  obtain ⟨before, hbefore, hfound⟩ := mem_itemsOf.1 (mem_of_mem_firstsBy hfirst)
  -- The field that comes first refers to the same item, and so by the same name.
  have hnames := namesItem_of_mem_fields model.fields_eq hfield hitem
  have hfirstNames := namesItem_of_mem_fields model.fields_eq hbefore hfound
  obtain ⟨hkind, hname⟩ := Prod.mk.inj hkey
  rw [hkind] at hfirstNames
  obtain rfl : first = item := Prod.ext hkind (hfirstNames.eq_of_key_eq hnames hname)
  rw [← List.mem_map, model.imports_eq, imported_eq]
  exact List.mem_filter.2 ⟨hfirst, by simpa using hother⟩

/-- An import is an item that a field refers to, and not the table. -/
theorem IsModel.exists_field
    (model : IsModel cwd options schema table file fields imports decoratorsOf) {i : Import}
    (hi : i ∈ imports) : (∃ field ∈ fields, field.type.item? = some i.item) ∧
      importKey i.item ≠ importKey (.table, table.name) := by
  have hmem : i.item ∈ imports.map Import.item := List.mem_map_of_mem hi
  rw [model.imports_eq, imported_eq, List.mem_filter] at hmem
  exact ⟨mem_itemsOf.1 (mem_of_mem_firstsBy hmem.1), by simpa using hmem.2⟩

/-- A type that refers to the table of the model itself goes by its name, where names are texts. -/
theorem IsModel.typeName_eq
    (model : IsModel cwd options schema table file fields imports decoratorsOf)
    (names : schema.HasTextNames) {field : Field} (hfield : field ∈ fields)
    {item : ItemKind × Name} (hitem : field.type.item? = some item)
    (hown : importKey item = importKey (.table, table.name)) :
    TypeScript.typeName field.type = table.name := by
  have hnames := namesItem_of_mem_fields model.fields_eq hfield hitem
  have hkey : item.2.key = table.name.key := congrArg Prod.snd hown
  rw [TypeScript.typeName_of_item? hitem, hnames.eq_of_hasTextNames names hkey.symm]

/-- An enumeration that a decorator checks for is imported, under the very name that the decorator
has where all names are texts. -/
theorem IsModel.exists_import_of_prefix
    (model : IsModel cwd options schema table file fields imports decoratorsOf) {field : Field}
    (hfield : field ∈ fields) {line : Text} (hline : line ∈ decoratorsOf field)
    (hstart : Rule.memberCall <+: line) : ∃ enumeration, Rule.ChecksMember enumeration line ∧
      ∃ i ∈ imports, importKey i.item = importKey (.enumeration, enumeration) ∧
        (schema.HasTextNames → i.name = enumeration) := by
  obtain ⟨enumeration, name, hchecks, htype, hkey⟩ := exists_enumeration_of_prefix
    model.fields_eq hfield (model.decorators_eq field hfield) hline hstart
  have hitem := FieldType.item?_eq_enumeration_iff.2 htype
  have hother : importKey (.enumeration, name) ≠ importKey (.table, table.name) := by
    simp [importKey]
  obtain ⟨i, hi, heq⟩ := model.exists_import hfield hitem hother
  have hnames := namesItem_of_mem_fields model.fields_eq hfield hitem
  refine ⟨enumeration, hchecks, i, hi, by rw [heq, importKey, importKey, hkey], fun names => ?_⟩
  rw [hnames.eq_of_hasTextNames names hkey.symm]
  exact congrArg Prod.snd heq

/-- **Imports are exact.** The file of a table is a model whose imports are, each once and in the
order of first occurrence, the items that the types of its fields refer to, without the table: all
that the fields and their decorators need, and no more. -/
theorem imports_exact (h : schema.tableFile cwd options table = .ok file) :
    ∃ fields imports decoratorsOf,
      IsModel cwd options schema table file fields imports decoratorsOf ∧
        AreNeeded schema table fields decoratorsOf imports := by
  obtain ⟨fields, imports, decoratorsOf, model⟩ := exists_isModel h
  have hfirsts : imports.map Import.item =
      (firstsBy importKey (itemsOf fields)).filter
        (importKey · ≠ importKey (.table, table.name)) := by
    rw [model.imports_eq, imported_eq]
    simp only [List.mem_singleton, ne_eq]
  refine ⟨fields, imports, decoratorsOf, model, hfirsts, ?once, ?declared, ?checked, ?used, ?none⟩
  case once =>
    rw [← Function.comp_def, ← List.map_map, hfirsts]
    exact (nodup_map_firstsBy importKey _).sublist (List.filter_sublist.map importKey)
  case declared =>
    intro field hfield item hitem
    by_cases hown : importKey item = importKey (.table, table.name)
    · exact .inl ⟨hown, fun names => model.typeName_eq names hfield hitem hown⟩
    · obtain ⟨i, hi, rfl⟩ := model.exists_import hfield hitem hown
      exact .inr ⟨i, hi, rfl, (TypeScript.typeName_of_item? hitem).symm⟩
  case checked =>
    intro field hfield line hline hstart
    exact model.exists_import_of_prefix hfield hline hstart
  case used =>
    intro i hi
    obtain ⟨⟨field, hfield, hitem⟩, -⟩ := model.exists_field hi
    exact ⟨field, hfield, hitem, TypeScript.typeName_of_item? hitem⟩
  case none =>
    constructor
    · rintro rfl field hfield item hitem
      by_contra hother
      obtain ⟨i, hi, -⟩ := model.exists_import hfield hitem hother
      cases hi
    · intro hall
      refine List.eq_nil_iff_forall_not_mem.2 fun i hi => ?_
      obtain ⟨⟨field, hfield, hitem⟩, hother⟩ := model.exists_field hi
      exact hother (hall field hfield i.item hitem)

/-- A member has a role, and a task is done by a member in this role, after other tasks. -/
def task : Table :=
  ⟨.text "Task",
    [⟨.text "title", .common (.text "text"), []⟩,
      ⟨.text "after", .relation .null (.text "Task") (.text "title"), []⟩,
      ⟨.text "by", .relation .null (.text "Member") (.text "role"), []⟩,
      ⟨.text "level", .enumeration .null (.text "Role"), []⟩]⟩

/-- Tasks of members, and the roles of members. -/
def club : Schema :=
  [.enumeration ⟨.text "Role", .list [.text "GUEST", .text "HOST"]⟩,
    .table ⟨.text "Member", [⟨.text "role", .enumeration .null (.text "Role"), []⟩]⟩,
    .table task]

theorem imports_exact_club :
    ∃ file, club.tableFile [] {} task = .ok file ∧ ∃ fields imports decoratorsOf,
      IsModel [] {} club task file fields imports decoratorsOf ∧
        AreNeeded club task fields decoratorsOf imports ∧
        imports.map Import.item = [(.table, .text "Member"), (.enumeration, .text "Role")] := by
  obtain ⟨file, hfile⟩ := isOk_iff.1 (by decide +kernel : (club.tableFile [] {} task).isOk = true)
  obtain ⟨fields, imports, decoratorsOf, model, needed⟩ := imports_exact hfile
  refine ⟨file, hfile, fields, imports, decoratorsOf, model, needed, ?_⟩
  have himported : (club.fieldsOfTable {} task).map (imported [(.table, .text "Task")]) =
      .ok [(.table, .text "Member"), (.enumeration, .text "Role")] := by decide +kernel
  rw [model.fields_eq] at himported
  rw [model.imports_eq]
  exact Except.ok.inj himported

end Schema

end SchemaScribe
