import SchemaScribe.Proofs.Compile.ImportBlock
import SchemaScribe.Proofs.Layout.Specifiers
import SchemaScribe.Proofs.Model.Decoder
import SchemaScribe.Proofs.Model.FieldNames

/-!
# The file of a table can be read back

Where the names of a schema are words and the folders do not lead up, `decode` reads the file of a
table (`decode_tableFile`): it gives the imports, the name of the table, and the
fields with their types and decorators, as the file was made from them. This holds in every working
directory, but for those with a line feed in a name together with layouts that let such a name into
specifiers; there is such a directory in which no decoder is right (`no_decoder_at_brokenPlace`).

What the decoder asks for is that no line is broken and that no name holds a mark. The names of
fields and types come from the schema; decorators start with an `@`, and what they hold besides
names is in the string table. A specifier is made of the names on the way from one module to
another. The directories in which the program runs are on this way only if the modules of tables are
put at the root of the file system and those of enumerations are not.
-/

namespace SchemaScribe

open Text (lineFeed)
open TypeScript (IsReadable IsWord decode isWordCharacter readingOf)

/-! ## Words -/

/-- The names of all items and columns are words. -/
structure Schema.HasWords (schema : Schema) : Prop where
  items : ∀ item ∈ schema, ∀ name, item.name? = some name → ∃ t, name = .text t ∧ IsWord t
  columns : ∀ table, .table table ∈ schema → ∀ c ∈ table.columns, ∃ t, c.name = .text t ∧ IsWord t

/-- A path is one line and does not lead up, as any path that is made of words and slashes. -/
structure Path.IsTidy (path : Text) : Prop where
  line : lineFeed ∉ path
  no_dots : Text.ofString ".." ∉ Path.segments path

instance (path : Text) : Decidable (Path.IsTidy path) :=
  decidable_of_iff (lineFeed ∉ path ∧ ∀ s ∈ Path.segments path, s ≠ Text.ofString "..")
    ⟨fun h => ⟨h.1, fun hmem => h.2 _ hmem rfl⟩,
      fun h => ⟨h.line, fun _ hs heq => h.no_dots (heq ▸ hs)⟩⟩

namespace Options

/-- The output root and the folders are tidy paths; they may be absolute. -/
structure HasTidyFolders (options : Options) : Prop where
  root : ∃ root, options.outputRoot = .text root ∧ Path.IsTidy root
  folder : ∀ kind, ∃ folder, options.folder kind = .text folder ∧ Path.IsTidy folder

/-- The layout is made of word characters and slashes, the prefix of relations of word characters,
and the indent of blanks and tabs. -/
structure IsSimple (options : Options) : Prop where
  root : ∃ root, options.outputRoot = .text root ∧
    ∀ x ∈ root, isWordCharacter x = true ∨ x = .scalar '/'
  folder : ∀ kind, ∃ folder, options.folder kind = .text folder ∧
    ∀ x ∈ folder, isWordCharacter x = true ∨ x = .scalar '/'
  before : ∀ x ∈ options.relationPrefix.toText, isWordCharacter x = true
  indent : ∀ x ∈ options.indent.toText, x = .scalar ' ' ∨ x = .scalar '\t'

/-- Whether the modules of a kind are put at the root of the file system. -/
def isRooted (options : Options) (kind : ItemKind) : Bool :=
  Path.isAbsolute options.outputRoot.toText || Path.isAbsolute (options.folder kind).toText

end Options

theorem Schema.HasWords.hasTextNames {schema : Schema} (words : schema.HasWords) :
    schema.HasTextNames := by
  intro item hitem name hname
  obtain ⟨t, ht, -⟩ := words.items item hitem name hname
  exact ⟨t, ht⟩

/-- Names that are texts are words if their texts are. -/
theorem Schema.hasWords_of_names {schema : Schema}
    (hitems : ∀ item ∈ schema, ∀ name ∈ item.name?,
      IsWord name.toText ∧ name = .text name.toText)
    (hcolumns : ∀ table ∈ schema.filterMap Item.table?, ∀ c ∈ table.columns,
      IsWord c.name.toText ∧ c.name = .text c.name.toText) : schema.HasWords :=
  ⟨fun item hitem name hname => ⟨_, (hitems item hitem name hname).symm⟩,
    fun table htable c hc => ⟨_, (hcolumns table (mem_filterMap_table?.2 htable) c hc).symm⟩⟩

theorem TypeScript.IsWord.isPart {t : Text} (h : IsWord t) : Path.IsPart t :=
  ⟨h.ne_nil, h.not_mem (by decide)⟩

theorem TypeScript.IsWord.isSegment {t : Text} (h : IsWord t) : Path.IsSegment t := by
  have hdot : .scalar '.' ∉ t := h.not_mem (by decide)
  refine ⟨h.isPart, ?_, ?_⟩
  · rintro rfl
    exact hdot (by decide)
  · rintro rfl
    exact hdot (by decide)

/-! ## Specifiers -/

namespace Options

variable {cwd : Path.Location} {options : Options} {kind : ItemKind}
  {source target name path : Text}

/-- The path of the module of an item is one line, and is absolute if the modules of the kind are
put at the root. -/
theorem HasTidyFolders.lineFeed_not_mem_modulePath (h : options.HasTidyFolders)
    (hname : IsWord name) (hpath : options.modulePath kind (.text name) = .ok path) :
    lineFeed ∉ path ∧ Path.isAbsolute path = options.isRooted kind := by
  obtain ⟨root, hroot, hrootTidy⟩ := h.root
  obtain ⟨folder, hfolder, hfolderTidy⟩ := h.folder kind
  have hne : name ≠ [] := hname.ne_nil
  have hrelative := Path.isAbsolute_of_not_mem hname.isPart.no_slash
  have hbase : lineFeed ∉ Layout.base root folder := by
    unfold Layout.base
    split
    · exact hfolderTidy.line
    split
    · exact hrootTidy.line
    · exact Path.not_mem_join (by decide) hrootTidy.line hfolderTidy.line
  have hrooted : options.isRooted kind = Path.isAbsolute (Layout.base root folder) := by
    rw [isRooted, hroot, hfolder, Layout.isAbsolute_base_eq]
    rfl
  rw [modulePath_text hroot hfolder, if_neg fun hnil => hne hnil.2, Layout.place,
    if_neg hne] at hpath
  obtain rfl := Except.ok.inj hpath
  refine ⟨Path.not_mem_join (by decide) hbase (hname.not_mem (by decide)), ?_⟩
  rw [hrooted, Path.join_of_not_isAbsolute _ hrelative, List.append_assoc]
  by_cases hnil : Layout.base root folder = []
  · rw [hnil]
    exact hrelative
  · exact Path.isAbsolute_append hnil _

/-- Below folders that are not at the root, the names on the way to a module are those of folders
and the name of the item. -/
theorem HasTidyFolders.lineFeed_not_mem_way (h : options.HasTidyFolders) (hname : IsWord name) :
    ∀ s ∈ options.folderWay kind ++ [name], lineFeed ∉ s := by
  obtain ⟨root, hroot, hrootTidy⟩ := h.root
  obtain ⟨folder, hfolder, hfolderTidy⟩ := h.folder kind
  have hnames : ∀ {path : Text}, Path.IsTidy path →
      ∀ s ∈ Path.names (Path.segments path), lineFeed ∉ s := fun hpath s hs hfeed =>
    hpath.line (Text.mem_of_mem_split (Path.mem_names.1 hs).1 hfeed)
  rw [folderWay, hroot, hfolder, List.forall_mem_append, List.forall_mem_append]
  exact ⟨⟨hnames hrootTidy, hnames hfolderTidy⟩, by simpa using hname.not_mem (by decide)⟩

theorem HasTidyFolders.exists_modulePath (h : options.HasTidyFolders)
    (hrooted : options.isRooted kind = false) (cwd : Path.Location) (hname : IsWord name) :
    ∃ path, options.modulePath kind (.text name) = .ok path ∧
      Path.absolute cwd path = cwd ++ (options.folderWay kind ++ [name]) ∧
      Path.absolute cwd (if Path.directory path = "" then "." else Path.directory path) =
        cwd ++ options.folderWay kind := by
  obtain ⟨root, hroot, hrootTidy⟩ := h.root
  obtain ⟨folder, hfolder, hfolderTidy⟩ := h.folder kind
  rw [isRooted, hroot, hfolder, Bool.or_eq_false_iff] at hrooted
  obtain ⟨path, hpath, hgoal, hstart⟩ := exists_modulePath_of_isForward hroot
    ⟨hrooted.1, hrootTidy.no_dots⟩ hfolder ⟨hrooted.2, hfolderTidy.no_dots⟩ cwd hname.isPart
  have hsegment := hname.isSegment
  rw [Path.step, if_neg (not_or.2 ⟨hsegment.ne_empty, hsegment.ne_dot⟩), if_neg hsegment.ne_dots,
    List.append_assoc] at hgoal
  exact ⟨path, hpath, hgoal, hstart⟩

/-- **Specifiers do not break lines**, unless they lead from the root through directories whose
names do. -/
theorem HasTidyFolders.lineFeed_not_mem_importPath (h : options.HasTidyFolders)
    (hcwd : (options.isRooted .table = true → options.isRooted .enumeration = true) ∨
      ∀ s ∈ cwd, lineFeed ∉ s) (hsource : IsWord source) (htarget : IsWord target)
    (hpath : importPath cwd options .table (.text source) kind (.text target) = .ok path) :
    lineFeed ∉ path := by
  obtain ⟨sourcePath, hsourcePath, hpath⟩ := bind_eq_ok_iff.1 hpath
  obtain ⟨targetPath, htargetPath, hpath⟩ := bind_eq_ok_iff.1 hpath
  obtain rfl := pure_eq_ok_iff.1 hpath
  obtain ⟨hline, habsolute⟩ := h.lineFeed_not_mem_modulePath htarget htargetPath
  by_cases hfree : options.isRooted kind = true ∨ ∀ s ∈ cwd, lineFeed ∉ s
  · refine Path.not_mem_specifier rfl rfl (by decide) (by decide) fun s hs hfeed => ?_
    rcases Path.mem_absolute (List.mem_of_mem_drop hs) with ⟨hrelative, hs⟩ | hs
    · rcases hfree with hrooted | hcwd
      · exact Bool.false_ne_true (hrelative.symm.trans (habsolute.trans hrooted))
      · exact hcwd s hs hfeed
    · exact hline (Text.mem_of_mem_split hs hfeed)
  · -- Neither module is at the root, so that the way between them is below the working directory.
    obtain ⟨hkind, hnames⟩ := not_or.1 hfree
    have htable : options.isRooted .table = false := by
      have hroots := hcwd.resolve_right hnames
      cases kind with
      | table => exact Bool.eq_false_iff.2 hkind
      | enumeration => exact Bool.eq_false_iff.2 fun htrue => hkind (hroots htrue)
    obtain ⟨_, hsource', -, hstart⟩ := h.exists_modulePath htable cwd hsource
    obtain ⟨_, htarget', hgoal, -⟩ := h.exists_modulePath (Bool.eq_false_iff.2 hkind) cwd htarget
    obtain rfl := Except.ok.inj (hsourcePath.symm.trans hsource')
    obtain rfl := Except.ok.inj (htargetPath.symm.trans htarget')
    refine Path.not_mem_specifier hstart hgoal (by decide) (by decide) fun s hs => ?_
    rw [Path.common_append, List.drop_length_add_append] at hs
    exact h.lineFeed_not_mem_way htarget s (List.mem_of_mem_drop hs)

end Options

/-! ## Decorators -/

/-- The expressions of transforms are written in one line. -/
theorem Check.lineFeed_not_mem_expression {check : Check} {expression : Text}
    (h : check.expression? = some expression) : lineFeed ∉ expression := by
  have hall : ∀ check ∈ [Check.integer, .decimal, .boolean, .date, .text, .unspecified],
      ∀ expression ∈ check.expression?, lineFeed ∉ expression := by decide +kernel
  cases check with
  | member enumeration => cases h
  | _ => exact hall _ (by simp) expression h

/-- The decorators of a rule start with an `@` and are lines, if the names in them are. -/
theorem Rule.lines_of_decorators {rule : Rule} (hlanguage : rule.language = StringTable.language)
    (hcheck : rule.check ≠ .unspecified) (hfield : lineFeed ∉ rule.field.toText)
    (hmember : ∀ enumeration, rule.check = .member enumeration → lineFeed ∉ enumeration.toText)
    {lines : List Text} (h : rule.decorators StringTable.all = .ok lines) :
    ∀ line ∈ lines, line.head? = some (.scalar '@') ∧ lineFeed ∉ line := by
  obtain rfl := Except.ok.inj ((decorators_eq hlanguage hcheck).symm.trans h)
  have harguments : lineFeed ∉ rule.check.arguments := by
    cases hkind : rule.check with
    | member enumeration =>
      simp only [Check.arguments, List.mem_append, not_or]
      exact ⟨hmember enumeration hkind, by decide⟩
    | _ => decide
  have hcomplaint : lineFeed ∉ rule.check.complaint rule.field := by
    cases hkind : rule.check with
    | member enumeration =>
      simp only [Check.complaint, List.mem_append, not_or]
      exact ⟨⟨hfield, by decide⟩, hmember enumeration hkind⟩
    | unspecified => exact absurd hkind hcheck
    | _ =>
      simp only [Check.complaint, List.mem_append, not_or]
      exact ⟨hfield, by decide⟩
  have hvalidator : lineFeed ∉ Text.ofString rule.check.validator := by
    cases rule.check with
    | member enumeration => exact (by decide : lineFeed ∉ Text.ofString "IsEnum")
    | _ => decide
  rw [List.forall_mem_append]
  constructor
  · intro line hline
    obtain ⟨expression, hexpression, rfl⟩ := Option.map_eq_some_iff.1 (Option.mem_toList.1 hline)
    refine ⟨rfl, ?_⟩
    simp only [transformText, List.mem_append, not_or]
    exact ⟨⟨by decide, Check.lineFeed_not_mem_expression hexpression⟩, by decide⟩
  · intro line hline
    obtain rfl := List.mem_singleton.1 hline
    refine ⟨rfl, ?_⟩
    simp only [callText, List.mem_append, not_or]
    exact ⟨⟨⟨⟨⟨⟨by decide, hvalidator⟩, by decide⟩, harguments⟩, by decide⟩, hcomplaint⟩, by decide⟩

namespace Schema

variable {cwd : Path.Location} {options : Options} {schema : Schema} {table : Table}
  {file : ModuleFile} {fields : List Field} {field : Field}

/-! ## Fields -/

theorem HasWords.isWord_of_namesItem (words : schema.HasWords) {kind : ItemKind} {name : Name}
    (h : schema.NamesItem kind name) : ∃ t, name = .text t ∧ IsWord t := by
  obtain ⟨item, hitem, -, hname⟩ := h.exists_item
  exact words.items item hitem name hname

/-- The names of fields are words if those of the columns are, and the prefix is made of the same
characters. -/
theorem HasWords.isWord_name (words : schema.HasWords)
    (hbefore : ∀ x ∈ options.relationPrefix.toText, isWordCharacter x = true)
    (htable : .table table ∈ schema) (hfields : schema.fieldsOfTable options table = .ok fields)
    (hfield : field ∈ fields) : IsWord field.name.toText := by
  have hmem : field.name.toText ∈ table.columns.flatMap options.fieldNames := by
    rw [← names_of_fieldsOfColumns hfields]
    exact List.mem_map_of_mem hfield
  obtain ⟨c, hc, hname⟩ := List.mem_flatMap.1 hmem
  obtain ⟨t, ht, hword⟩ := words.columns table htable c hc
  have htext : c.name.toText = t := by rw [ht]; rfl
  rcases List.mem_append.1 hname with hname | hname
  · obtain ⟨-, hname⟩ := Options.mem_referenceNames.1 hname
    rw [hname, htext]
    exact ⟨List.append_ne_nil_of_right_ne_nil _ hword.ne_nil,
      List.forall_mem_append.2 ⟨hbefore, hword.all⟩⟩
  · rw [List.mem_singleton.1 hname, htext]
    exact hword

theorem HasWords.lineFeed_not_mem_typeName (words : schema.HasWords)
    (hfields : schema.fieldsOfTable options table = .ok fields) (hfield : field ∈ fields) :
    lineFeed ∉ (TypeScript.typeName field.type).toText := by
  cases hitem : field.type.item? with
  | none =>
    cases htype : field.type with
    | scalar category => cases category <;> decide
    | enumeration name | table name =>
      rw [htype] at hitem
      cases hitem
  | some item =>
    obtain ⟨kind, name⟩ := item
    obtain ⟨t, rfl, hword⟩ :=
      words.isWord_of_namesItem (namesItem_of_mem_fields hfields hfield hitem)
    rw [TypeScript.typeName_of_item? hitem]
    exact hword.not_mem (by decide)

/-- The decorators of a field start with an `@` and are lines. -/
theorem HasWords.lines_of_decorators (words : schema.HasWords) (htable : .table table ∈ schema)
    (hfields : schema.fieldsOfTable options table = .ok fields) (hfield : field ∈ fields)
    {lines : List Text} (hlines : TypeScript.decorators field.rules = .ok lines) :
    ∀ line ∈ lines, line.head? = some (.scalar '@') ∧ lineFeed ∉ line := by
  intro line hline
  obtain ⟨c, hc, group, hgroup, hmem⟩ := (mem_fieldsOfColumns hfields).1 hfield
  obtain ⟨rule, hrule, rendered, hrendered, hline⟩ :=
    TypeScript.exists_rule_of_mem_decorators hlines hline
  obtain ⟨hcheck, hlanguage⟩ := isRuled_of_fieldsOf hgroup hmem rule hrule
  have hname : rule.field = c.name := by
    rcases rules_of_mem_fieldsOf hgroup hmem with hnone | ⟨hrules, -⟩
    · rw [hnone] at hrule
      cases hrule
    · rw [hrules] at hrule
      obtain ⟨-, check, -, rfl⟩ := mem_rulesFor hrule
      rfl
  obtain ⟨t, ht, hword⟩ := words.columns table htable c hc
  have hfeed : lineFeed ∉ rule.field.toText := by
    rw [hname, ht]
    exact hword.not_mem (by decide)
  refine Rule.lines_of_decorators hlanguage hcheck hfeed (fun enumeration hmember => ?_) hrendered
    line hline
  -- A rule names an enumeration by the text that is the name of the enumeration itself.
  obtain ⟨name, htype, hkey⟩ := exists_enumeration_of_member hgroup hmem hrule hmember
  have hnames := namesItem_of_mem_fields hfields hfield
    (FieldType.item?_eq_enumeration_iff.2 htype)
  obtain ⟨t, rfl, hword⟩ := words.isWord_of_namesItem hnames
  rw [hnames.eq_of_hasTextNames words.hasTextNames hkey.symm]
  exact hword.not_mem (by decide)

/-! ## Files -/

/-- **The file of a table can be read back.** Where all names are words, the prefix of relations is
made of the same characters, the folders are tidy and the indent holds no line feed, the file of a
table is a model of fields, imports and decorators, and `decode` gives back just these from its
text: for each import the name and the specifier, the name of the table, and for each field its
name, whether it is required, its type and its decorators.

It does not matter where the program runs, unless specifiers lead from tables at the root to
enumerations that are below the working directory: then the names of directories on the way must
not break a line. -/
theorem decode_tableFile (words : schema.HasWords)
    (hbefore : ∀ x ∈ options.relationPrefix.toText, isWordCharacter x = true)
    (hindent : lineFeed ∉ options.indent.toText) (hfolders : options.HasTidyFolders)
    (hcwd : (options.isRooted .table = true → options.isRooted .enumeration = true) ∨
      ∀ s ∈ cwd, lineFeed ∉ s)
    (htable : .table table ∈ schema) (h : schema.tableFile cwd options table = .ok file) :
    ∃ fields imports decoratorsOf,
      IsModel cwd options schema table file fields imports decoratorsOf ∧
        decode options.indent.toText file.content =
          some ⟨imports.map fun i => (i.name.toText, i.specifier), table.name.toText,
            fields.map fun field => readingOf (decoratorsOf field) field⟩ := by
  obtain ⟨fields, imports, decoratorsOf, model⟩ := exists_isModel h
  refine ⟨fields, imports, decoratorsOf, model, ?_⟩
  obtain ⟨owner, howner, hownerWord⟩ := words.items _ htable _ rfl
  have htableWord : IsWord table.name.toText := by
    rw [howner]
    exact hownerWord
  have himports : ∀ i ∈ imports.map fun i => (i.name, i.specifier),
      IsWord i.1.toText ∧ lineFeed ∉ i.2 := by
    intro pair hpair
    obtain ⟨i, hi, rfl⟩ := List.mem_map.1 hpair
    obtain ⟨⟨field, hfield, hitem⟩, -⟩ := model.exists_field hi
    obtain ⟨t, ht, hword⟩ :=
      words.isWord_of_namesItem (namesItem_of_mem_fields model.fields_eq hfield hitem)
    have hname : i.name = .text t := ht
    have hspecifier := model.specifiers i hi
    rw [howner, hname] at hspecifier
    rw [hname]
    exact ⟨hword, hfolders.lineFeed_not_mem_importPath hcwd hownerWord hword hspecifier⟩
  have hreadable : ∀ field ∈ fields, IsReadable (decoratorsOf field) field := fun field hfield =>
    ⟨words.isWord_name hbefore htable model.fields_eq hfield,
      words.lineFeed_not_mem_typeName model.fields_eq hfield,
      words.lines_of_decorators htable model.fields_eq hfield (model.decorators_eq field hfield)⟩
  have hdecode :=
    TypeScript.decode_tableText options.annotated hindent himports htableWord hreadable
  rw [List.map_map, List.map_map] at hdecode
  rw [model.content_eq]
  exact hdecode

theorem decode_tableFile_club :
    ∃ file, club.tableFile ["work"] {} task = .ok file ∧ ∃ fields imports decoratorsOf,
      IsModel ["work"] {} club task file fields imports decoratorsOf ∧
        decode "  " file.content =
          some ⟨imports.map fun i => (i.name.toText, i.specifier), "Task",
            fields.map fun field => readingOf (decoratorsOf field) field⟩ := by
  obtain ⟨file, hfile⟩ :=
    isOk_iff.1 (by decide +kernel : (club.tableFile ["work"] {} task).isOk = true)
  have words : club.HasWords :=
    hasWords_of_names (by decide +kernel) (by decide +kernel)
  have hfolders : Options.HasTidyFolders {} :=
    ⟨⟨_, rfl, by decide⟩, fun kind => by cases kind <;> exact ⟨_, rfl, by decide⟩⟩
  exact ⟨file, hfile, decode_tableFile words (by decide) (by decide) hfolders
    (.inl (by decide)) (by decide) hfile⟩

/-! ## Line feeds in the working directory -/

/-- A directory in whose name an import ends and another one starts. -/
def brokenPlace : Path.Location := ["E'\nimport \x7b E \x7d from '."]

/-- Options for interfaces, those of tables at the root of the file system. -/
def rootedTables (enumFolder : String) : Options :=
  { style := .plain, outputRoot := .text "", tableFolder := .text "/t",
    enumFolder := .text enumFolder }

/-- A table that refers to an enumeration, and has more columns. -/
def tableOfE (columns : List Column) : Table :=
  ⟨.text "T", ⟨.text "a", .enumeration .null (.text "E"), []⟩ :: columns⟩

/-- The enumeration and a table of the same name, and the table with more columns. -/
def schemaOfE (columns : List Column) : Schema :=
  [.enumeration ⟨.text "E", .list []⟩,
    .table ⟨.text "E", [⟨.text "id", .common (.text "int"), []⟩]⟩, .table (tableOfE columns)]

/-- Two columns, of the enumeration and of numbers. -/
def plainColumns : List Column :=
  [⟨.text "otm_b", .enumeration .null (.text "E"), []⟩, ⟨.text "b", .common (.text "int"), []⟩]

/-- A relation, which has two fields that look the same. -/
def linkedColumns : List Column := [⟨.text "b", .relation .null (.text "E") (.text "id"), []⟩]

/-- A decoder reads the files of all tables that are generated in a working directory, for simple
options and names that are words. -/
def Decodes (decoder : Text → Text → Option TypeScript.Reading) (cwd : Path.Location) : Prop :=
  ∀ (options : Options) (schema : Schema) (table : Table) (file : ModuleFile),
    schema.HasWords → options.IsSimple → .table table ∈ schema →
    schema.tableFile cwd options table = .ok file →
    ∃ fields imports decoratorsOf,
      IsModel cwd options schema table file fields imports decoratorsOf ∧
        decoder options.indent.toText file.content =
          some ⟨imports.map fun i => (i.name.toText, i.specifier), table.name.toText,
            fields.map fun field => readingOf (decoratorsOf field) field⟩

theorem IsModel.length_imports {imports : List Import} {decoratorsOf : Field → List Text}
    (model : IsModel cwd options schema table file fields imports decoratorsOf) {n : Nat}
    (h : (schema.fieldsOfTable options table).map
      (fun fields => (imported [importKey (.table, table.name)] fields).length) = .ok n) :
    imports.length = n := by
  rw [model.fields_eq] at h
  rw [← List.length_map Import.item, model.imports_eq]
  exact Except.ok.inj h

/-- **No decoder for a directory that breaks lines.** There a file with one import is the same as a
file with two, for other options. -/
theorem no_decoder_at_brokenPlace : ¬ ∃ decoder, Decodes decoder brokenPlace := by
  rintro ⟨decoder, hdecodes⟩
  obtain ⟨file, hplain⟩ := isOk_iff.1 (by decide +kernel :
    ((schemaOfE plainColumns).tableFile brokenPlace (rootedTables "")
      (tableOfE plainColumns)).isOk = true)
  have hlinked : (schemaOfE linkedColumns).tableFile brokenPlace (rootedTables "/")
      (tableOfE linkedColumns) = .ok file := by
    rw [← hplain]
    decide +kernel
  have hsimple : ∀ folder ∈ ["", "/"], (rootedTables folder).IsSimple := by
    intro folder hfolder
    have hcharacters : ∀ x ∈ Text.ofString folder, isWordCharacter x = true ∨ x = .scalar '/' := by
      revert folder
      decide
    have hbefore : ∀ x ∈ ({} : Options).relationPrefix.toText, isWordCharacter x = true := by
      decide
    have hindent : ∀ x ∈ ({} : Options).indent.toText, x = .scalar ' ' ∨ x = .scalar '\t' := by
      decide
    refine ⟨⟨_, rfl, by decide⟩, fun kind => ?_, hbefore, hindent⟩
    cases kind with
    | table => exact ⟨_, rfl, by decide⟩
    | enumeration => exact ⟨_, rfl, hcharacters⟩
  obtain ⟨_, imports, _, model, hread⟩ := hdecodes _ _ _ _
    (hasWords_of_names (by decide +kernel) (by decide +kernel)) (hsimple "" (by simp))
    (by decide) hplain
  obtain ⟨_, imports', _, model', hread'⟩ := hdecodes _ _ _ _
    (hasWords_of_names (by decide +kernel) (by decide +kernel)) (hsimple "/" (by simp))
    (by decide) hlinked
  -- The readings of the one file are equal, and so the numbers of imports in them.
  have himports := congrArg List.length (TypeScript.Reading.mk.inj
    (Option.some.inj (hread.symm.trans hread'))).1
  have hone : imports.length = 1 := model.length_imports (by decide +kernel)
  have htwo : imports'.length = 2 := model'.length_imports (by decide +kernel)
  simp [hone, htwo] at himports

end Schema

end SchemaScribe
