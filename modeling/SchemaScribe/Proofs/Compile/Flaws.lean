import SchemaScribe.Proofs.Compile.Failure
import SchemaScribe.Proofs.Compile.Files

/-!
# What is wrong with documents that are not compiled

A document that is read is compiled, or there is a flaw in it that its author can mend
(`compile_isOk_or_isFlaw`): a reference that leads nowhere or in a circle, a name that is taken
twice, or a file that two items would have. Nothing else fails, whatever the names, the flags and
the numbers in the document are: the types that the reader knows are those that models can declare
and rules can check.

The only part of a compilation that can fail on such a document is the search along a chain of
relations (`isFlaw_of_typeAlong`), since it leads from columns that were read to columns that were
read.
-/

namespace SchemaScribe

/-- A reference leads nowhere, or in a circle. -/
inductive ReferenceError.IsFlaw : ReferenceError → Prop
  | missing (kind : ItemKind) (column name : Name) : IsFlaw (.missing kind column name)
  | noKey (table column target key : Name) : IsFlaw (.noKey table column target key)
  | circular (chain : List Text) : IsFlaw (.circular chain)

/-- A reference is wrong, or two items are in each other's way. -/
inductive CompileError.IsFlaw : CompileError → Prop
  | reference {e : ReferenceError} (h : e.IsFlaw) : IsFlaw (.reference e)
  | duplicate (kind : ItemKind) (name : Name) : IsFlaw (.duplicate kind name)
  | collision (file : Text) (firstKind : ItemKind) (firstName : Name) (secondKind : ItemKind)
      (secondName : Name) : IsFlaw (.collision file firstKind firstName secondKind secondName)

namespace Schema

variable {cwd : Path.Location} {options : Options} {schema : Schema} {owner column : Name}

/-! ## References that are texts -/

theorem isFlaw_of_lookUp {α : Type} {kind : ItemKind} {found : Option α} {name : Text}
    {e : ReferenceError} (h : lookUp kind found (.text name) column = .error e) : e.IsFlaw := by
  cases found with
  | none =>
    obtain rfl := Except.error.inj h
    exact .missing _ _ _
  | some a => cases h

theorem isFlaw_of_targetOf {table : Text} {key : Name} {e : ReferenceError}
    (h : schema.targetOf (.text table) key owner column = .error e) : e.IsFlaw := by
  rcases bind_eq_error_iff.1 h with htable | ⟨target, -, hkey⟩
  · exact isFlaw_of_lookUp htable
  · split at hkey
    · cases hkey
    · obtain rfl := Except.error.inj hkey
      exact .noKey _ _ _ _

/-- A relation leads to a column that was read. -/
theorem isRead_of_targetOf (isRead : ∀ item ∈ schema, item.IsRead) {table key : Name}
    {target : Target} (h : schema.targetOf table key owner column = .ok target) :
    target.column.IsRead := by
  obtain ⟨⟨-, htable⟩, hcolumn⟩ := targetOf_eq_ok_iff.1 h
  exact (isRead _ (mem_of_table?_eq_some htable)).2 _ (List.mem_of_find?_eq_some hcolumn)

/-- **Along a chain** from a column that was read, the search fails on flaws only. -/
theorem isFlaw_of_typeAlong (isRead : ∀ item ∈ schema, item.IsRead) {chain : List Text}
    {type : ColumnType} {e : ReferenceError} (htype : type.IsRead)
    (h : schema.typeAlong chain type owner column = .error e) : e.IsFlaw := by
  induction chain, type, owner, column using typeAlong.induct schema with
  | case1 chain owner column name hcompound =>
    obtain ⟨t, rfl, -⟩ := htype
    cases hcompound
  | case2 chain owner column name hscalar t hknown =>
    rw [typeAlong, if_neg hscalar, hknown] at h
    cases h
  | case3 chain owner column name hscalar hunknown =>
    obtain ⟨t, rfl, hknown⟩ := htype
    rw [Json.text?, Option.bind_some] at hunknown
    rw [hunknown] at hknown
    cases hknown
  | case4 => rw [typeAlong] at h; cases h
  | case5 => rw [typeAlong] at h; cases h
  | case6 chain owner column name members =>
    obtain ⟨t, rfl⟩ := htype
    rw [typeAlong] at h
    rcases bind_eq_error_iff.1 h with hmembers | ⟨found, -, hfound⟩
    · exact isFlaw_of_lookUp hmembers
    · cases hfound
  | case7 chain owner column name table key hseen =>
    rw [typeAlong_relation, if_pos hseen] at h
    obtain rfl := Except.error.inj h
    exact .circular _
  | case8 chain owner column name table key hseen e' herror =>
    obtain ⟨⟨t, rfl⟩, -⟩ := htype
    rw [typeAlong_relation, if_neg hseen, herror] at h
    obtain rfl := Except.error.inj h
    exact isFlaw_of_targetOf herror
  | case9 chain owner column name table key hseen target htarget ih =>
    rw [typeAlong_relation, if_neg hseen, htarget] at h
    exact ih (isRead_of_targetOf isRead htarget).type h
  | case10 => exact absurd htype id

theorem isFlaw_of_fieldsOf (isRead : ∀ item ∈ schema, item.IsRead) {table : Table} {c : Column}
    {e : ReferenceError} (hread : c.IsRead) (h : schema.fieldsOf options table c = .error e) :
    e.IsFlaw := by
  have htype : ∀ {e}, schema.typeOf c.type table.name c.name = .error e → e.IsFlaw :=
    fun he => isFlaw_of_typeAlong isRead hread.type he
  unfold fieldsOf at h
  split at h
  · next name target key hrelation =>
    obtain ⟨⟨t, rfl⟩, -⟩ : ColumnType.IsRead (.relation name target key) :=
      hrelation ▸ hread.type
    rcases bind_eq_error_iff.1 h with htarget | ⟨resolved, -, h⟩
    · exact isFlaw_of_targetOf htarget
    · rcases bind_eq_error_iff.1 h with hfound | ⟨found, -, h⟩
      · exact htype hfound
      · cases h
  · rcases bind_eq_error_iff.1 h with hfound | ⟨found, -, h⟩
    · exact htype hfound
    · cases h

theorem isFlaw_of_fieldsOfColumns (isRead : ∀ item ∈ schema, item.IsRead) {table : Table}
    {columns : List Column} {e : ReferenceError} (hread : ∀ c ∈ columns, c.IsRead)
    (h : schema.fieldsOfColumns options table columns = .error e) : e.IsFlaw := by
  induction columns with
  | nil => cases h
  | cons c rest ih =>
    obtain ⟨hc, hrest⟩ := List.forall_mem_cons.1 hread
    rcases bind_eq_error_iff.1 h with hgroup | ⟨group, -, h⟩
    · exact isFlaw_of_fieldsOf isRead hc hgroup
    · rcases bind_eq_error_iff.1 h with htail | ⟨tail, -, h⟩
      · exact ih hrest htail
      · cases h

/-! ## Items that are read -/

/-- A table that was read has a file, or one of its references is wrong. -/
theorem isFlaw_of_tableFile (isRead : ∀ item ∈ schema, item.IsRead)
    (layout : options.HasTextLayout) {table : Table} (htable : .table table ∈ schema)
    {e : CompileError} (h : schema.tableFile cwd options table = .error e) : e.IsFlaw := by
  cases hfields : schema.fieldsOfTable options table with
  | error r =>
    rw [tableFile, hfields] at h
    obtain rfl := Except.error.inj h
    exact .reference (isFlaw_of_fieldsOfColumns isRead (isRead _ htable).2 hfields)
  | ok fields =>
    obtain ⟨file, hfile⟩ := (tableFile_isOk_iff layout cwd
      (hasTextNames_of_isRead isRead) htable).2 ⟨fields, hfields⟩
    simp [hfile] at h

/-- An item that was read fails on a flaw. -/
theorem FailsAt.isFlaw (isRead : ∀ item ∈ schema, item.IsRead) (layout : options.HasTextLayout)
    {k : Nat} {e : CompileError} (h : FailsAt cwd options schema k e) : e.IsFlaw := by
  cases h with
  | notAnItem hitem => exact absurd (isRead _ (List.mem_of_getElem? hitem)) id
  | table hitem hfile => exact isFlaw_of_tableFile isRead layout (List.mem_of_getElem? hitem) hfile
  | enumeration hitem hfile =>
    obtain ⟨file, hok⟩ := exists_enumerationFile layout (isRead _ (List.mem_of_getElem? hitem))
    simp [hok] at hfile
  | collision => exact .collision _ _ _ _ _
  | duplicate => exact .duplicate _ _

/-- **What is read is compiled, or has a flaw**: a reference that leads nowhere or in a circle, a
name that is taken twice, or a file that two items would have. -/
theorem compile_isOk_or_isFlaw {document : Json} (h : ofJson document = .ok schema)
    (layout : options.HasTextLayout) (cwd : Path.Location) :
    (∃ output, (schema.compile cwd options).1 = .ok output) ∨
      ∃ e, (schema.compile cwd options).1 = .error e ∧ e.IsFlaw := by
  have isRead := isRead_of_ofJson h
  have hnames := checkNames_of_hasTextNames (hasTextNames_of_isRead isRead)
  cases hresult : (schema.compile cwd options).1 with
  | ok output => exact .inl ⟨output, rfl⟩
  | error e =>
    obtain ⟨k, hk⟩ := exists_failsFirst hnames hresult
    exact .inr ⟨e, rfl, hk.fails.isFlaw isRead layout⟩

/-- A document with flags and numbers that mean nothing, a name that looks like a placeholder, and
two columns with one link, `a.b.c`. -/
def dottedDocument : Json :=
  .object [("list_table", .list
    [.object [("type", .text "table"), ("name", .text "a.b"), ("columns", .list
        [.object [("name", .text "\x7b0\x7d"), ("type", .object
            [("kind", .text "decimal"), ("precision", .list []), ("scale", .text "two")]),
            ("attributes", .list [.object [("type", .list [.null]), ("value", .int (-1))]])],
          .object [("name", .text "c"), ("type", .object
            [("kind", .text "relation"), ("table_name", .text "a"), ("foreign_key", .text "b.c")])]])],
      .object [("type", .text "table"), ("name", .text "a"), ("columns", .list
        [.object [("name", .text "b.c"), ("type", .object
            [("kind", .text "relation"), ("table_name", .text ""), ("foreign_key", .text "")]),
            ("attributes", .object [("null", .list [])])]])]])]

/-- The schema of that document. -/
def dotted : Schema :=
  [.table ⟨.text "a.b",
      [⟨.text "\x7b0\x7d", .decimal (.text "decimal") (.list []) (.text "two"),
          [⟨.list [.null], .int (-1)⟩]⟩,
        ⟨.text "c", .relation (.text "relation") (.text "a") (.text "b.c"), []⟩]⟩,
    .table ⟨.text "a",
      [⟨.text "b.c", .relation (.text "relation") (.text "") (.text ""),
        [⟨.text "null", .list []⟩]⟩]⟩]

/-- Without a file extension, below an absolute output root and in no folder. -/
def bareLayout : Options :=
  { outputRoot := .text "/", tableFolder := .text "", enumFolder := .text "",
    fileExtension := .text "" }

theorem hasTextLayout_bareLayout : bareLayout.HasTextLayout where
  root := ⟨_, rfl, by decide⟩
  folder kind := by cases kind <;> exact ⟨_, rfl⟩
  extension := ⟨_, rfl⟩

theorem compile_isOk_or_isFlaw_dotted :
    ofJson dottedDocument = .ok dotted ∧ bareLayout.HasTextLayout ∧
      (dotted.compile [] bareLayout).1 = .error (.reference (.circular ["a.b.c", "a.b.c"])) ∧
      ((∃ output, (dotted.compile [] bareLayout).1 = .ok output) ∨
        ∃ e, (dotted.compile [] bareLayout).1 = .error e ∧ e.IsFlaw) := by
  have hread : ofJson dottedDocument = .ok dotted := by decide +kernel
  exact ⟨hread, hasTextLayout_bareLayout, by decide +kernel,
    compile_isOk_or_isFlaw hread hasTextLayout_bareLayout []⟩

end Schema

end SchemaScribe
