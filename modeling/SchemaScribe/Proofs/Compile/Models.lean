import SchemaScribe.Proofs.Compile.Acceptance
import SchemaScribe.Proofs.Model.Field

/-!
# What models refer to

The types of the fields of a model refer to items of the schema only (`namesItem_of_mem_fields`),
each to the one that is found by its name, so that equal names are one name
(`NamesItem.eq_of_key_eq`). A model imports items that its fields refer to
(`exists_field_of_mem_imported`), whatever else the fields are (`imported_congr`).
-/

namespace SchemaScribe.Schema

variable {cwd : Path.Location} {options : Options} {schema : Schema} {table : Table}

/-- All columns of a schema that is compiled have their fields. -/
theorem exists_fieldsOf_of_compile {output : Output}
    (h : (schema.compile cwd options).1 = .ok output) {t : Table} (ht : .table t ∈ schema)
    {c : Column} (hc : c ∈ t.columns) : ∃ fields, schema.fieldsOf options t c = .ok fields := by
  obtain ⟨-, built, hitems, -⟩ := compile_isOk_iff.1 ⟨output, h⟩
  rw [← hitems] at ht
  obtain ⟨b, -, hb⟩ := List.mem_map.1 ht
  obtain ⟨fields, -, -, -, hfields, -⟩ := tableFile_eq_ok_iff.1 (b.tableFile_eq hb)
  exact fieldsOfColumns_isOk_iff.1 ⟨fields, hfields⟩ c hc

/-! ## The items that fields refer to -/

/-- An item of the kind is called so, and it is the one that is found by this name. -/
def NamesItem (schema : Schema) : ItemKind → Name → Prop
  | .table, name => ∃ t, schema.table? name = some t ∧ t.name = name
  | .enumeration, name => ∃ e, schema.enumeration? name = some e ∧ e.name = name

variable {kind : ItemKind} {name other : Name}

theorem table?_congr (h : name.key = other.key) : schema.table? name = schema.table? other := by
  rw [table?, table?, h]

theorem enumeration?_congr (h : name.key = other.key) :
    schema.enumeration? name = schema.enumeration? other := by
  rw [enumeration?, enumeration?, h]

/-- A table that is found by some name is found by its own. -/
theorem namesItem_of_table? {t : Table} (h : schema.table? name = some t) :
    schema.NamesItem .table t.name := by
  have hkey : t.name.key = name.key := by simpa using List.find?_some h
  exact ⟨t, (table?_congr hkey).trans h, rfl⟩

/-- An enumeration that is found by some name is found by its own. -/
theorem namesItem_of_enumeration? {e : Enumeration} (h : schema.enumeration? name = some e) :
    schema.NamesItem .enumeration e.name := by
  have hkey : e.name.key = name.key := by simpa using List.find?_some h
  exact ⟨e, (enumeration?_congr hkey).trans h, rfl⟩

/-- What is found by equal names is called by one of them. -/
theorem NamesItem.eq_of_key_eq (h : schema.NamesItem kind name) (h' : schema.NamesItem kind other)
    (hkey : name.key = other.key) : name = other := by
  cases kind with
  | table =>
    obtain ⟨t, ht, rfl⟩ := h
    obtain ⟨u, hu, rfl⟩ := h'
    rw [table?_congr hkey] at ht
    rw [Option.some.inj (ht.symm.trans hu)]
  | enumeration =>
    obtain ⟨e, he, rfl⟩ := h
    obtain ⟨f, hf, rfl⟩ := h'
    rw [enumeration?_congr hkey] at he
    rw [Option.some.inj (he.symm.trans hf)]

theorem NamesItem.exists_item (h : schema.NamesItem kind name) :
    ∃ item ∈ schema, item.kind? = some kind ∧ item.name? = some name := by
  cases kind with
  | table =>
    obtain ⟨t, ht, rfl⟩ := h
    exact ⟨_, mem_of_table?_eq_some ht, rfl, rfl⟩
  | enumeration =>
    obtain ⟨e, he, rfl⟩ := h
    exact ⟨_, mem_of_enumeration?_eq_some he, rfl, rfl⟩

theorem NamesItem.exists_text (h : schema.NamesItem kind name) (names : schema.HasTextNames) :
    ∃ t, name = .text t := by
  obtain ⟨item, hitem, -, hname⟩ := h.exists_item
  exact names item hitem name hname

/-- Where names are texts, whatever is equal to the name of an item is this name. -/
theorem NamesItem.eq_of_hasTextNames (h : schema.NamesItem kind name)
    (names : schema.HasTextNames) (hkey : other.key = name.key) : other = name := by
  obtain ⟨t, rfl⟩ := h.exists_text names
  exact Json.key_eq_text_iff.1 hkey

/-- The type of a column refers to an item of the schema, if it refers to one at all. -/
theorem namesItem_of_typeOf {type : ColumnType} {owner column : Name} {found : FieldType}
    (h : schema.typeOf type owner column = .ok found) (hitem : found.item? = some (kind, name)) :
    schema.NamesItem kind name := by
  refine typeAlong_induction (fun _ _ _ _ => _) ?_ (fun _ _ ih => ih) h
  intro _ type owner column hlast hfound
  cases type with
  | relation type target key => exact absurd ⟨type, target, key, rfl⟩ hlast
  | enumeration type members =>
    obtain ⟨e, he, rfl⟩ := typeOf_enumeration_eq_ok_iff.1 hfound
    obtain ⟨rfl, rfl⟩ : ItemKind.enumeration = kind ∧ e.name = name := by
      simpa [FieldType.item?] using hitem
    exact namesItem_of_enumeration? (lookUp_eq_ok_iff.1 he).2
  | common type =>
    rw [typeOf, typeAlong] at hfound
    split at hfound
    · simp at hfound
    · split at hfound
      · obtain rfl := Except.ok.inj hfound
        simp [FieldType.item?] at hitem
      · simp at hfound
  | other x => simp [typeOf, typeAlong] at hfound
  | _ =>
    rw [typeOf, typeAlong] at hfound
    obtain rfl := Except.ok.inj hfound
    simp [FieldType.item?] at hitem

/-- The fields of a column refer to items of the schema only. -/
theorem namesItem_of_mem_fieldsOf {column : Column} {fields : List Field}
    (h : schema.fieldsOf options table column = .ok fields) {field : Field}
    (hfield : field ∈ fields) (hitem : field.type.item? = some (kind, name)) :
    schema.NamesItem kind name := by
  by_cases hrelation : column.type.IsRelation
  · obtain ⟨type, target, key, htype⟩ := hrelation
    obtain ⟨resolved, found, hresolved, hfound, rfl⟩ := (fieldsOf_relation_eq_ok_iff htype).1 h
    rcases List.mem_cons.1 hfield with rfl | hfield
    · obtain ⟨rfl, rfl⟩ : ItemKind.table = kind ∧ resolved.table.name = name := by
        simpa [FieldType.item?] using hitem
      exact namesItem_of_table? (targetOf_eq_ok_iff.1 hresolved).1.2
    · obtain rfl := List.mem_singleton.1 hfield
      exact namesItem_of_typeOf hfound hitem
  · obtain ⟨found, hfound, rfl⟩ := (fieldsOf_eq_ok_iff hrelation).1 h
    obtain rfl := List.mem_singleton.1 hfield
    exact namesItem_of_typeOf hfound hitem

/-- The fields of a table refer to items of the schema only. -/
theorem namesItem_of_mem_fields {fields : List Field}
    (h : schema.fieldsOfTable options table = .ok fields) {field : Field} (hfield : field ∈ fields)
    (hitem : field.type.item? = some (kind, name)) : schema.NamesItem kind name := by
  obtain ⟨c, -, group, hgroup, hmem⟩ := (mem_fieldsOfColumns h).1 hfield
  exact namesItem_of_mem_fieldsOf hgroup hmem hitem

/-! ## The items that models import -/

/-- What a model imports, one of its fields refers to. -/
theorem exists_field_of_mem_imported {seen : List (ItemKind × Json)} {fields : List Field}
    (h : (kind, name) ∈ imported seen fields) :
    ∃ field ∈ fields, field.type.item? = some (kind, name) := by
  induction fields generalizing seen with
  | nil => simp [imported] at h
  | cons field rest ih =>
    have hrest : ∀ {seen}, (kind, name) ∈ imported seen rest →
        ∃ other ∈ field :: rest, other.type.item? = some (kind, name) := by
      intro seen hmem
      obtain ⟨other, hother, hitem⟩ := ih hmem
      exact ⟨other, List.mem_cons_of_mem _ hother, hitem⟩
    rw [imported] at h
    split at h
    · exact hrest h
    · next otherKind otherName hitem =>
      split at h
      · exact hrest h
      · rcases List.mem_cons.1 h with heq | h
        · exact ⟨field, List.mem_cons_self, by rw [hitem, heq]⟩
        · exact hrest h

/-- What a model imports depends on the types of its fields only. -/
theorem imported_congr {fields fields' : List Field}
    (h : fields.map Field.type = fields'.map Field.type) (seen : List (ItemKind × Json)) :
    imported seen fields = imported seen fields' := by
  induction fields generalizing fields' seen with
  | nil =>
    obtain rfl := List.map_eq_nil_iff.1 h.symm
    rfl
  | cons field rest ih =>
    obtain ⟨field', rest', rfl, htype, hrest⟩ := List.map_eq_cons_iff.1 h.symm
    simp only [imported, ← htype, ih hrest.symm]

/-- The import lines exist exactly when each item has a path from the model. -/
theorem importLines_isOk_iff {items : List (ItemKind × Name)} :
    (∃ lines, importLines cwd options name items = .ok lines) ↔ ∀ item ∈ items,
      ∃ path, options.importPath cwd .table name item.1 item.2 = .ok path := by
  induction items with
  | nil => simp [importLines]
  | cons item rest ih =>
    obtain ⟨kind, other⟩ := item
    simp only [importLines, bind_eq_ok_iff, pure_eq_ok_iff, List.forall_mem_cons, ← ih]
    constructor
    · rintro ⟨_, path, hpath, tail, htail, -⟩
      exact ⟨⟨path, hpath⟩, tail, htail⟩
    · rintro ⟨⟨path, hpath⟩, tail, htail⟩
      exact ⟨_, path, hpath, tail, htail, rfl⟩

end SchemaScribe.Schema
