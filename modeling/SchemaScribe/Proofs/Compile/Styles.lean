import SchemaScribe.Proofs.Compile.Models
import SchemaScribe.Proofs.Compile.Pairs
import SchemaScribe.Proofs.Rule.Rendering

/-!
# The two styles of models

The style of models decides nothing but decoration (`compile_styles`). In both styles a schema is
compiled alike: the error is the same, or the output has the same paths and entries, the same
enumerations, and for each table two files with the same imports and fields, of which the interface
is the class without its decorators and without the marks of required fields (`Undecorated`).

The rules of fields are only there in one style, and may be rendered always (`exists_decorators`),
so that they are no cause of an error; nothing else in a field depends on the style.
-/

namespace SchemaScribe

/-- The field without its rules. -/
def Field.bare (field : Field) : Field := { field with rules := [] }

/-- The options with another style of models. -/
def Options.withStyle (options : Options) (style : ModelStyle) : Options := { options with style }

namespace TypeScript

/-- The declaration of a field in a class, without the mark of a required field. -/
def unmarked (field : Field) : Text :=
  if field.isRequired then (declaration true field).eraseIdx field.name.toText.length
  else declaration true field

/-- The declaration of a required field in a class: what stands behind its name is the mark. -/
theorem declaration_of_isRequired {field : Field} (h : field.isRequired = true) :
    declaration true field =
      field.name.toText ++ .scalar '!' :: (Text.ofString ": " ++ (typeName field.type).toText) := by
  have hmark : Text.ofString "!" = [.scalar '!'] := rfl
  simp only [declaration, marker, h, Bool.not_true, Bool.false_eq_true, if_false, if_true, hmark,
    List.append_assoc, List.cons_append, List.nil_append]

/-- Without its mark, the declaration of a field in a class is that in an interface. -/
theorem unmarked_eq (field : Field) : unmarked field = declaration false field.bare := by
  unfold unmarked
  split
  · next h =>
    have hnone : Text.ofString "" = [] := rfl
    rw [declaration_of_isRequired h, List.eraseIdx_append_of_length_le (Nat.le_refl _),
      Nat.sub_self, List.eraseIdx_cons_zero]
    simp only [declaration, marker, Field.bare, h, Bool.not_true, Bool.false_eq_true, if_false,
      hnone, List.append_nil, List.append_assoc]
  · next h => simp only [declaration, marker, Field.bare, h, Bool.not_false, if_true]

example : TypeScript.unmarked ⟨.text "id", .scalar .number, true, []⟩ = "id: number" := by
  decide +kernel

/-- The body of a class: for each field the decorators of its rules, then its declaration. -/
theorem bodyLines_class {fields : List Field} {decoratorsOf : Field → List Text}
    (h : ∀ field ∈ fields, decorators field.rules = .ok (decoratorsOf field)) :
    bodyLines true fields =
      .ok (fields.flatMap fun field => decoratorsOf field ++ [declaration true field]) := by
  refine bodyLines_eq fun field hfield => ?_
  rw [fieldLines, if_pos rfl, h field hfield]
  rfl

/-- The body of an interface: the declarations of a class without their marks. -/
theorem bodyLines_interface (fields : List Field) :
    bodyLines false (fields.map Field.bare) = .ok (fields.map unmarked) := by
  have hlines : ∀ field ∈ fields.map Field.bare,
      fieldLines false field = .ok [declaration false field] := fun _ _ => rfl
  rw [bodyLines_eq hlines, ← List.map_eq_flatMap, List.map_map]
  exact congrArg Except.ok (List.map_congr_left fun field _ => (unmarked_eq field).symm)

end TypeScript

namespace Schema

variable {cwd : Path.Location} {options : Options} {schema : Schema} {table : Table}
  {column : Column}

/-! ## Fields and imports -/

/-- In the other style a column has the same fields, but without rules. -/
theorem fieldsOf_plain (options : Options) (schema : Schema) (table : Table) (column : Column) :
    schema.fieldsOf (options.withStyle .plain) table column =
      (schema.fieldsOf (options.withStyle .decorated) table column).map (List.map Field.bare) := by
  unfold fieldsOf
  split
  · next name target key htype =>
    cases schema.targetOf target key table.name column.name with
    | error e => rfl
    | ok resolved =>
      simp only [htype]
      cases schema.typeOf (.relation name target key) table.name column.name with
      | error e => rfl
      | ok found => rfl
  · cases schema.typeOf column.type table.name column.name with
    | error e => rfl
    | ok found => rfl

theorem fieldsOfTable_plain (options : Options) (schema : Schema) (table : Table) :
    schema.fieldsOfTable (options.withStyle .plain) table =
      (schema.fieldsOfTable (options.withStyle .decorated) table).map (List.map Field.bare) := by
  unfold fieldsOfTable
  induction table.columns with
  | nil => rfl
  | cons column rest ih =>
    rw [fieldsOfColumns, fieldsOfColumns, ih, fieldsOf_plain]
    cases schema.fieldsOf (options.withStyle .decorated) table column with
    | error e => rfl
    | ok fields =>
      cases schema.fieldsOfColumns (options.withStyle .decorated) table rest with
      | error e => rfl
      | ok tail => simp [Except.map, bind, Except.bind, pure, Except.pure]

theorem importLines_withStyle (cwd : Path.Location) (options : Options) (style : ModelStyle)
    (table : Name) (items : List (ItemKind × Name)) :
    importLines cwd (options.withStyle style) table items =
      importLines cwd options table items := by
  induction items with
  | nil => rfl
  | cons item rest ih =>
    rw [importLines, importLines, ih]
    rfl

/-- The imports and the path of the file of a table with the given fields. -/
def headOf (cwd : Path.Location) (options : Options) (table : Table) (fields : List Field) :
    Except CompileError (List Text × Text) := do
  if table.name.isCompound then
    .error (.reference (.notAName table.name.typeName))
  let imports ← (importLines cwd options table.name
    (imported [(.table, table.name.key)] fields)).mapError .layout
  let path ← (options.fileName .table table.name).mapError .layout
  return (imports, path)

theorem headOf_withStyle (cwd : Path.Location) (options : Options) (style : ModelStyle)
    (table : Table) (fields : List Field) :
    headOf cwd (options.withStyle style) table fields = headOf cwd options table fields := by
  simp only [headOf, importLines_withStyle]
  rfl

theorem headOf_bare (cwd : Path.Location) (options : Options) (table : Table)
    (fields : List Field) :
    headOf cwd options table (fields.map Field.bare) = headOf cwd options table fields := by
  have htypes : (fields.map Field.bare).map Field.type = fields.map Field.type := by
    rw [List.map_map]
    rfl
  simp only [headOf, imported_congr htypes]

/-- The file of a table whose fields and body are there has the rest if its head is there. -/
theorem tableFile_of_bodyLines {fields : List Field} {body : List Text}
    (hfields : schema.fieldsOfTable options table = .ok fields)
    (hbody : TypeScript.bodyLines options.annotated fields = .ok body) :
    schema.tableFile cwd options table = (headOf cwd options table fields).map fun head =>
      ⟨head.2, TypeScript.tableText options.annotated options.indent.toText head.1 table.name
        body⟩ := by
  simp only [tableFile, headOf, hfields, hbody, mapError_ok, bind, Except.bind]
  split
  · rfl
  · cases (importLines cwd options table.name
      (imported [(.table, table.name.key)] fields)).mapError CompileError.layout with
    | error e => rfl
    | ok imports =>
      cases (options.fileName .table table.name).mapError CompileError.layout with
      | error e => rfl
      | ok path => rfl

/-! ## Files -/

/-- Of two files the first is that of a table in the decorated style and the second that in the
plain one: both have the same path, imports and fields, and the body of the second is that of the
first without the decorators of the rules and without the marks of the required fields. -/
def Undecorated (cwd : Path.Location) (options : Options) (schema : Schema)
    (decorated plain : ModuleFile) : Prop :=
  ∃ table fields imports, ∃ decoratorsOf : Field → List Text, .table table ∈ schema ∧
    schema.tableFile cwd (options.withStyle .decorated) table = .ok decorated ∧
    schema.tableFile cwd (options.withStyle .plain) table = .ok plain ∧
    schema.fieldsOfTable (options.withStyle .decorated) table = .ok fields ∧
    schema.fieldsOfTable (options.withStyle .plain) table = .ok (fields.map Field.bare) ∧
    (∀ field ∈ fields, TypeScript.decorators field.rules = .ok (decoratorsOf field)) ∧
    decorated.content = TypeScript.tableText true options.indent.toText imports table.name
      (fields.flatMap fun field => decoratorsOf field ++ [TypeScript.declaration true field]) ∧
    plain.content = TypeScript.tableText false options.indent.toText imports table.name
      (fields.map TypeScript.unmarked)

/-- The file of a table is built alike in both styles. -/
theorem tableFile_styles (cwd : Path.Location) (options : Options) (hmem : .table table ∈ schema) :
    Both (fun f g => f.name = g.name ∧ Undecorated cwd options schema f g)
      (schema.tableFile cwd (options.withStyle .decorated) table)
      (schema.tableFile cwd (options.withStyle .plain) table) := by
  have hplain := fieldsOfTable_plain options schema table
  cases hfields : schema.fieldsOfTable (options.withStyle .decorated) table with
  | error e =>
    rw [hfields] at hplain
    rw [tableFile, tableFile, hfields, hplain]
    exact .error _
  | ok fields =>
    rw [hfields] at hplain
    obtain ⟨decoratorsOf, hdecorators⟩ := exists_decorators_of_fieldsOfTable hfields
    have hclass := @tableFile_of_bodyLines cwd (options.withStyle .decorated) _ _ _ _ hfields
      (TypeScript.bodyLines_class hdecorators)
    have hinterface := @tableFile_of_bodyLines cwd (options.withStyle .plain) _ _ _ _ hplain
      (TypeScript.bodyLines_interface fields)
    rw [headOf_withStyle] at hclass hinterface
    rw [headOf_bare] at hinterface
    cases hhead : headOf cwd options table fields with
    | error e =>
      rw [hclass, hinterface, hhead]
      exact .error e
    | ok head =>
      rw [hhead] at hclass hinterface
      rw [hclass, hinterface]
      exact .ok ⟨rfl, table, fields, head.1, decoratorsOf, hmem, hclass, hinterface, hfields,
        hplain, hdecorators, rfl, rfl⟩

/-- The file of an enumeration is the same in both styles, and that of a table the same but for its
decoration. -/
def StyledAlike (cwd : Path.Location) (options : Options) (schema : Schema) :
    ItemKind → ModuleFile → ModuleFile → Prop
  | .table => Undecorated cwd options schema
  | .enumeration => Eq

/-- Every item is built alike in both styles. -/
theorem build_styles (cwd : Path.Location) (options : Options) {item : Item}
    (hitem : item ∈ schema) :
    Both (BuildAlike (StyledAlike cwd options schema))
      (schema.build cwd (options.withStyle .decorated) item)
      (schema.build cwd (options.withStyle .plain) item) := by
  cases item with
  | other x => exact .error _
  | table t =>
    exact (tableFile_styles cwd options hitem).bind fun f g hfg => .ok ⟨rfl, rfl, hfg.1, hfg.2⟩
  | enumeration e =>
    have hsame : enumerationFile (options.withStyle .decorated) e =
        enumerationFile (options.withStyle .plain) e := rfl
    rw [build, build, hsame]
    cases enumerationFile (options.withStyle .plain) e with
    | error error => exact .error error
    | ok file => exact .ok ⟨rfl, rfl, rfl, rfl⟩

/-- **The style of models only decorates**: in both styles the compilation of a schema fails with
the same error, or has the same enumerations, the same paths and entries of tables, and of each
table two files that differ in decoration only. -/
theorem compile_styles (cwd : Path.Location) (options : Options) (schema : Schema) :
    Both (fun a b => a.enumerations = b.enumerations ∧ a.tables.paths = b.tables.paths ∧
        List.Forall₂ (fun f g => f.name = g.name ∧ Undecorated cwd options schema f g)
          a.tables.files b.tables.files)
      (schema.compile cwd (options.withStyle .decorated)).1
      (schema.compile cwd (options.withStyle .plain)).1 := by
  have hbuild : List.Forall₂ (fun item item' => Both (BuildAlike (StyledAlike cwd options schema))
      (schema.build cwd (options.withStyle .decorated) item)
      (schema.build cwd (options.withStyle .plain) item')) schema schema :=
    List.forall₂_same.2 fun item hitem => build_styles cwd options hitem
  refine (compile_alike hbuild rfl rfl).mono fun a b halike => ?_
  have htables := halike .table
  have henumerations := halike .enumeration
  refine ⟨?_, htables.paths, htables.files⟩
  have hfiles : a.enumerations.files = b.enumerations.files :=
    List.forall₂_eq_eq_eq ▸ henumerations.files.imp fun f g hfg => hfg.2
  exact congrArg₂ Bucket.mk hfiles henumerations.paths

end Schema

end SchemaScribe
