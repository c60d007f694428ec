import SchemaScribe.Proofs.Compile.Imports

/-!
# Where the output is

The output root and the file extension decide nothing but the paths of the generated files
(`compile_relocated`). A schema is compiled at one site exactly when it is at the other, and the
files of the two outputs have the same contents in turn: what stands in a file of where it is are
the specifiers of its imports, and the way from one module to another stays as it is when both are
put below another root.

`exists_build_atSite` says this of one item, for all sites at once; the rest compares what is left
of the same items in two outputs.
-/

namespace SchemaScribe

/-- Where output goes: the output root and the extension of the files. -/
structure Site where
  root : Text
  extension : Text
  deriving DecidableEq, Repr, Inhabited

namespace Site

/-- The path of a file, given by its path below the output root without the extension. -/
def path (site : Site) (inner : Text) : Text := Path.join site.root inner ++ site.extension

/-- Two paths are those of one file at two sites. -/
def Moves (here there : Site) (path path' : Text) : Prop :=
  ∃ inner, Path.isAbsolute inner = false ∧ path = here.path inner ∧ path' = there.path inner

variable {here there : Site} {p q p' q' : Text}

/-- At one site, different files have different paths. -/
theorem path_inj {site : Site} {a b : Text} (ha : Path.isAbsolute a = false)
    (hb : Path.isAbsolute b = false) (h : site.path a = site.path b) : a = b := by
  have hjoined := List.append_cancel_right h
  rw [Path.join_of_not_isAbsolute _ ha, Path.join_of_not_isAbsolute _ hb] at hjoined
  exact List.append_cancel_left hjoined

theorem Moves.eq_iff (hp : here.Moves there p p') (hq : here.Moves there q q') :
    p = q ↔ p' = q' := by
  obtain ⟨a, ha, rfl, rfl⟩ := hp
  obtain ⟨b, hb, rfl, rfl⟩ := hq
  constructor
  · intro h
    rw [path_inj ha hb h]
  · intro h
    rw [path_inj ha hb h]

end Site

namespace Options

/-- The options with another site for the output. -/
def atSite (options : Options) (site : Site) : Options :=
  { options with outputRoot := .text site.root, fileExtension := .text site.extension }

/-- The folders of the kinds are plain paths. -/
def HasPlainFolders (options : Options) : Prop :=
  ∀ kind, ∃ folder, options.folder kind = .text folder ∧ Path.IsPlain folder

variable {options : Options} {site : Site} {name target : Text}

theorem HasPlainFolders.exists_along (folders : options.HasPlainFolders) (kind : ItemKind) :
    ∃ way : List Text, (∀ s ∈ way, Path.IsSegment s) ∧
      options.folder kind = .text (Path.along way) := by
  obtain ⟨folder, hfolder, hplain⟩ := folders kind
  obtain ⟨way, hway, rfl⟩ := Path.isPlain_iff.1 hplain
  exact ⟨way, hway, hfolder⟩

theorem folder_atSite (options : Options) (site : Site) (kind : ItemKind) :
    (options.atSite site).folder kind = options.folder kind := by
  cases kind <;> rfl

theorem HasPlainFolders.hasRelativeFolders (folders : options.HasPlainFolders)
    (hroot : Path.IsPlain site.root) : (options.atSite site).HasRelativeFolders where
  root := by
    obtain ⟨way, hway, hsite⟩ := Path.isPlain_iff.1 hroot
    exact ⟨site.root, rfl, hsite ▸ Path.isAbsolute_along fun s hs => (hway s hs).toIsPart⟩
  folder kind := by
    obtain ⟨way, hway, hfolder⟩ := folders.exists_along kind
    exact ⟨_, (folder_atSite options site kind).trans hfolder,
      Path.isAbsolute_along fun s hs => (hway s hs).toIsPart⟩

/-- The file of an item has its path below the output root, wherever that is. -/
theorem HasPlainFolders.exists_fileName (folders : options.HasPlainFolders) (kind : ItemKind)
    (hname : Path.IsSegment name) : ∃ inner, Path.isAbsolute inner = false ∧
      ∀ site : Site, Path.IsPlain site.root →
        (options.atSite site).fileName kind (.text name) = .ok (site.path inner) := by
  obtain ⟨folder, hfolder, hfolderText⟩ := folders.exists_along kind
  have hinner : ∀ s ∈ folder ++ [name], Path.IsPart s := by
    refine List.forall_mem_append.2 ⟨fun s hs => (hfolder s hs).toIsPart, ?_⟩
    simpa using hname.toIsPart
  refine ⟨Path.along (folder ++ [name]), Path.isAbsolute_along hinner, fun site hsite => ?_⟩
  obtain ⟨root, hroot, hrootText⟩ := Path.isPlain_iff.1 hsite
  have hrootParts : ∀ s ∈ root, Path.IsPart s := fun s hs => (hroot s hs).toIsPart
  have hmodule : (options.atSite site).modulePath kind (.text name) =
      .ok (Path.along (root ++ folder ++ [name])) :=
    modulePath_along (congrArg Json.text hrootText)
      ((folder_atSite options site kind).trans hfolderText) hrootParts
      (fun s hs => (hfolder s hs).toIsPart) hname.toIsPart
  refine fileName_eq_ok_iff.2 ⟨_, site.extension, hmodule, rfl, ?_⟩
  rw [Site.path, hrootText, Path.join_along hrootParts hinner (by simp), List.append_assoc]

/-- The path by which one module refers to another does not depend on where the output is. -/
theorem HasPlainFolders.exists_importPath (folders : options.HasPlainFolders)
    (kind other : ItemKind) (hname : Path.IsSegment name) (htarget : Path.IsSegment target) :
    ∃ path, ∀ (cwd : Path.Location) (site : Site), Path.IsPlain site.root →
      (options.atSite site).importPath cwd kind (.text name) other (.text target) =
        .ok path := by
  obtain ⟨a, ha, hatext⟩ := folders.exists_along kind
  obtain ⟨b, hb, hbtext⟩ := folders.exists_along other
  have hbTarget : ∀ s ∈ b ++ [target], Path.IsSegment s :=
    List.forall_mem_append.2 ⟨hb, by simpa using htarget⟩
  refine ⟨specifier [] (Path.along (a ++ [name])) (Path.along (b ++ [target])),
    fun cwd site hsite => ?_⟩
  obtain ⟨root, hroot, hrootText⟩ := Path.isPlain_iff.1 hsite
  have hmodule : ∀ {kind : ItemKind} {folder : List Text} {name : Text},
      options.folder kind = .text (Path.along folder) → (∀ s ∈ folder, Path.IsSegment s) →
      Path.IsSegment name → (options.atSite site).modulePath kind (.text name) =
        .ok (Path.along (root ++ folder ++ [name])) := by
    intro kind folder name htext hfolder hname
    exact modulePath_along (congrArg Json.text hrootText)
      ((folder_atSite options site kind).trans htext) (fun s hs => (hroot s hs).toIsPart)
      (fun s hs => (hfolder s hs).toIsPart) hname.toIsPart
  have hspecifier := Path.specifier_below cwd [] hroot ha hname.no_slash hbTarget (by simp)
  rw [← List.append_assoc root b [target]] at hspecifier
  rw [importPath, hmodule hatext ha hname, hmodule hbtext hb htarget, ← hspecifier]
  rfl

end Options

namespace Schema

variable {cwd cwd' : Path.Location} {options : Options} {schema : Schema} {here there : Site}
  {t : Table} {fields : List Field}

/-! ## One item -/

theorem fieldsOfTable_atSite (options : Options) (schema : Schema) (site : Site) (t : Table) :
    schema.fieldsOfTable (options.atSite site) t = schema.fieldsOfTable options t := by
  unfold fieldsOfTable
  induction t.columns with
  | nil => rfl
  | cons column rest ih =>
    rw [fieldsOfColumns, fieldsOfColumns, ih]
    rfl

/-- The import lines of a model do not depend on where the output is. -/
theorem exists_importLines_atSite (folders : options.HasPlainFolders) {name : Text}
    (hname : Path.IsSegment name) {items : List (ItemKind × Name)}
    (hitems : ∀ item ∈ items, ∃ target, item.2 = .text target ∧ Path.IsSegment target) :
    ∃ lines, ∀ (cwd : Path.Location) (site : Site), Path.IsPlain site.root →
      importLines cwd (options.atSite site) (.text name) items = .ok lines := by
  induction items with
  | nil => exact ⟨[], fun _ _ _ => rfl⟩
  | cons item rest ih =>
    obtain ⟨kind, other⟩ := item
    obtain ⟨⟨target, htext, htarget⟩, hrest⟩ := List.forall_mem_cons.1 hitems
    obtain rfl : other = .text target := htext
    obtain ⟨path, hpath⟩ := folders.exists_importPath .table kind hname htarget
    obtain ⟨lines, hlines⟩ := ih hrest
    refine ⟨TypeScript.importLine (.text target) path :: lines, fun cwd site hsite => ?_⟩
    rw [importLines, hpath cwd site hsite, hlines cwd site hsite]
    rfl

/-- What a model imports are items of the schema, so that their names are segments. -/
theorem HasSegmentNames.of_mem_imported (names : schema.HasSegmentNames)
    (hfields : schema.fieldsOfTable options t = .ok fields) :
    ∀ item ∈ imported [(.table, t.name.key)] fields,
      ∃ target, item.2 = .text target ∧ Path.IsSegment target := by
  rintro ⟨kind, name⟩ hmem
  obtain ⟨field, hfield, hrefers⟩ := exists_field_of_mem_imported hmem
  obtain ⟨item, hitem, -, hname⟩ := (namesItem_of_mem_fields hfields hfield hrefers).exists_item
  exact names item hitem name hname

theorem exists_tableFile_atSite (folders : options.HasPlainFolders)
    (names : schema.HasSegmentNames) (ht : .table t ∈ schema) {file : ModuleFile}
    (h : schema.tableFile cwd (options.atSite here) t = .ok file) :
    ∃ inner content, Path.isAbsolute inner = false ∧
      ∀ (cwd : Path.Location) (site : Site), Path.IsPlain site.root →
        schema.tableFile cwd (options.atSite site) t = .ok ⟨site.path inner, content⟩ := by
  obtain ⟨name, hname, hsegment⟩ := names _ ht _ rfl
  obtain ⟨inner, hinner, hpath⟩ := folders.exists_fileName .table hsegment
  obtain ⟨fields, body, -, -, hfields, hbody, hcompound, -, -, -⟩ := tableFile_eq_ok_iff.1 h
  rw [fieldsOfTable_atSite] at hfields
  obtain ⟨lines, hlines⟩ :=
    exists_importLines_atSite folders hsegment (names.of_mem_imported hfields)
  refine ⟨inner, TypeScript.tableText options.annotated options.indent.toText lines t.name body,
    hinner, fun cwd site hsite => ?_⟩
  refine tableFile_eq_ok_iff.2 ⟨fields, body, lines, site.path inner, ?_, hbody, hcompound, ?_, ?_,
    rfl⟩
  · rw [fieldsOfTable_atSite, hfields]
  · rw [hname] at hlines ⊢
    exact hlines cwd site hsite
  · rw [hname]
    exact hpath site hsite

theorem exists_enumerationFile_atSite (folders : options.HasPlainFolders)
    (names : schema.HasSegmentNames) {e : Enumeration} (he : .enumeration e ∈ schema)
    {file : ModuleFile} (h : enumerationFile (options.atSite here) e = .ok file) :
    ∃ inner content, Path.isAbsolute inner = false ∧
      ∀ site : Site, Path.IsPlain site.root →
        enumerationFile (options.atSite site) e = .ok ⟨site.path inner, content⟩ := by
  obtain ⟨name, hname, hsegment⟩ := names _ he _ rfl
  obtain ⟨inner, hinner, hpath⟩ := folders.exists_fileName .enumeration hsegment
  obtain ⟨members, -, hmembers, -, -⟩ := enumerationFile_eq_ok_iff.1 h
  refine ⟨inner, TypeScript.enumerationText options.indent.toText e.name members, hinner,
    fun site hsite => ?_⟩
  refine enumerationFile_eq_ok_iff.2 ⟨members, site.path inner, hmembers, ?_, rfl⟩
  rw [hname]
  exact hpath site hsite

/-- **One item**: what is built from it at one site is built at every other, with the same
content. -/
theorem exists_build_atSite (folders : options.HasPlainFolders) (names : schema.HasSegmentNames)
    {item : Item} (hitem : item ∈ schema) {kind : ItemKind} {name : Name} {file : ModuleFile}
    (h : schema.build cwd (options.atSite here) item = .ok (kind, name, file)) :
    ∃ inner content, Path.isAbsolute inner = false ∧
      ∀ (cwd : Path.Location) (site : Site), Path.IsPlain site.root →
        schema.build cwd (options.atSite site) item =
          .ok (kind, name, ⟨site.path inner, content⟩) := by
  obtain ⟨hkind, hname, hfile⟩ := build_eq_ok_iff.1 h
  cases item with
  | other x => exact hfile.elim
  | table t =>
    obtain ⟨inner, content, hinner, hbuild⟩ := exists_tableFile_atSite folders names hitem hfile
    exact ⟨inner, content, hinner, fun cwd site hsite =>
      build_eq_ok_iff.2 ⟨hkind, hname, hbuild cwd site hsite⟩⟩
  | enumeration e =>
    obtain ⟨inner, content, hinner, hbuild⟩ :=
      exists_enumerationFile_atSite folders names hitem hfile
    exact ⟨inner, content, hinner, fun cwd site hsite =>
      build_eq_ok_iff.2 ⟨hkind, hname, hbuild site hsite⟩⟩

end Schema

/-! ## What is left of the items -/

/-- Two files have the same content and the paths of one file at two sites. -/
structure ModuleFile.Moves (here there : Site) (f g : ModuleFile) : Prop where
  content : f.content = g.content
  name : here.Moves there f.name g.name

/-- Two buckets hold the same contents in turn, and the same names with the paths of their files at
two sites. -/
structure Bucket.Moves (here there : Site) (a b : Bucket) : Prop where
  files : List.Forall₂ (ModuleFile.Moves here there) a.files b.files
  paths : List.Forall₂ (fun x y => x.1 = y.1 ∧ x.2.name = y.2.name ∧
    here.Moves there x.2.path y.2.path) a.paths b.paths

namespace Built

variable {cwd cwd' : Path.Location} {options : Options} {schema : Schema} {here there : Site}

/-- What is built from one item at two sites. -/
structure Moves (b : Built cwd (options.atSite here) schema)
    (c : Built cwd' (options.atSite there) schema) : Prop where
  item : c.item = b.item
  file : ModuleFile.Moves here there b.file c.file

variable {b b' : Built cwd (options.atSite here) schema}
  {c c' : Built cwd' (options.atSite there) schema}

theorem Moves.kind_eq (h : b.Moves c) : b.kind = c.kind :=
  Option.some.inj (b.kind?_item.symm.trans ((congrArg Item.kind? h.item.symm).trans c.kind?_item))

theorem Moves.name_eq (h : b.Moves c) : b.name = c.name :=
  Option.some.inj (b.name?_item.symm.trans ((congrArg Item.name? h.item.symm).trans c.name?_item))

/-- Items that are not in each other's way at one site are not at the other. -/
theorem Moves.compatible (h : b.Moves c) (h' : b'.Moves c') (hcompatible : b.Compatible b') :
    c.Compatible c' where
  file hfile := by
    rw [← h.kind_eq, ← h'.kind_eq]
    exact hcompatible.file ((h.file.name.eq_iff h'.file.name).2 hfile)
  name := by
    rw [← h.kind_eq, ← h'.kind_eq, ← h.name_eq, ← h'.name_eq]
    exact hcompatible.name

theorem exists_moves (folders : options.HasPlainFolders) (names : schema.HasSegmentNames)
    (hhere : Path.IsPlain here.root) (hthere : Path.IsPlain there.root) (cwd' : Path.Location)
    (hb : b.item ∈ schema) : ∃ c : Built cwd' (options.atSite there) schema, b.Moves c := by
  obtain ⟨inner, content, hinner, hbuild⟩ :=
    Schema.exists_build_atSite folders names hb b.build_eq
  have hfile : b.file = ⟨here.path inner, content⟩ := by
    have hsame := b.build_eq.symm.trans (hbuild cwd here hhere)
    simpa using hsame
  refine ⟨⟨b.item, b.kind, b.name, _, hbuild cwd' there hthere⟩, rfl, ?_, inner, hinner, ?_, rfl⟩
  · rw [hfile]
  · rw [hfile]

/-- What is built from all items at two sites. -/
theorem exists_all_moves (folders : options.HasPlainFolders) (names : schema.HasSegmentNames)
    (hhere : Path.IsPlain here.root) (hthere : Path.IsPlain there.root) (cwd' : Path.Location)
    {built : List (Built cwd (options.atSite here) schema)}
    (hbuilt : ∀ b ∈ built, b.item ∈ schema) :
    ∃ other : List (Built cwd' (options.atSite there) schema),
      other.map item = built.map item ∧ List.Forall₂ Moves built other := by
  induction built with
  | nil => exact ⟨[], rfl, .nil⟩
  | cons b rest ih =>
    obtain ⟨hb, hrest⟩ := List.forall_mem_cons.1 hbuilt
    obtain ⟨c, hc⟩ := exists_moves folders names hhere hthere cwd' hb
    obtain ⟨other, hitems, hother⟩ := ih hrest
    refine ⟨c :: other, ?_, .cons hc hother⟩
    rw [List.map_cons, List.map_cons, hitems, hc.item]

end Built

namespace Schema

variable {cwd cwd' : Path.Location} {options : Options} {schema : Schema} {here there : Site}

/-- A schema that is compiled at one site is compiled at every other. -/
theorem exists_compile_atSite (folders : options.HasPlainFolders)
    (names : schema.HasSegmentNames) (hhere : Path.IsPlain here.root)
    (hthere : Path.IsPlain there.root)
    (h : ∃ output, (schema.compile cwd (options.atSite here)).1 = .ok output) :
    ∃ output, (schema.compile cwd' (options.atSite there)).1 = .ok output := by
  obtain ⟨hnames, built, hitems, hcompatible⟩ := compile_isOk_iff.1 h
  obtain ⟨other, hother, hmoves⟩ := Built.exists_all_moves folders names hhere hthere cwd'
    fun b hb => Built.item_mem hitems hb
  refine compile_isOk_iff.2 ⟨hnames, other, hother.trans hitems, ?_⟩
  obtain ⟨hlength, hget⟩ := List.forall₂_iff_get.1 hmoves
  rw [List.pairwise_iff_getElem] at hcompatible ⊢
  intro i j hi hj hij
  have hi' : i < built.length := hlength ▸ hi
  have hj' : j < built.length := hlength ▸ hj
  exact (hget i hi' hi).compatible (hget j hj' hj) (hcompatible i j hi' hj' hij)

/-- **Output can be moved**: with plain folders and items whose names are segments, a schema is
compiled below one output root and with one file extension exactly when it is with others; and then
the files of each kind have the same contents in turn, and differ in the root and the extension of
their paths only. The working directory has no say in it either. -/
theorem compile_relocated (cwd cwd' : Path.Location) (folders : options.HasPlainFolders)
    (names : schema.HasSegmentNames) (hhere : Path.IsPlain here.root)
    (hthere : Path.IsPlain there.root) :
    ((∃ a, (schema.compile cwd (options.atSite here)).1 = .ok a) ↔
      ∃ b, (schema.compile cwd' (options.atSite there)).1 = .ok b) ∧
    ∀ {a b}, (schema.compile cwd (options.atSite here)).1 = .ok a →
      (schema.compile cwd' (options.atSite there)).1 = .ok b →
      ∀ kind, (a.bucket kind).Moves here there (b.bucket kind) := by
  refine ⟨⟨exists_compile_atSite folders names hhere hthere,
    exists_compile_atSite folders names hthere hhere⟩, fun ha hb kind => ?_⟩
  obtain ⟨built, hitems, -, hfills⟩ :=
    exists_fills (folders.hasRelativeFolders hhere) names.hasTextNames (Prod.ext ha rfl)
  obtain ⟨built', hitems', -, hfills'⟩ :=
    exists_fills (folders.hasRelativeFolders hthere) names.hasTextNames (Prod.ext hb rfl)
  obtain ⟨other, hother, hmoves⟩ := Built.exists_all_moves folders names hhere hthere cwd'
    fun b hb => Built.item_mem hitems hb
  -- What is built there is decided by the items, which are the same.
  have hinjective : Function.Injective (@Built.item cwd' (options.atSite there) schema) :=
    fun _ _ => Built.eq_of_item_eq
  obtain rfl : other = built' :=
    List.map_injective_iff.2 hinjective (hother.trans (hitems.trans hitems'.symm))
  have hkind : List.Forall₂ Built.Moves (Built.ofKind built kind) (Built.ofKind other kind) := by
    refine List.rel_filter (fun b c hbc => ?_) hmoves
    simp only [hbc.kind_eq]
  have hkey : ∀ (b : Built cwd (options.atSite here) schema)
      (c : Built cwd' (options.atSite there) schema), b.Moves c → b.key = c.key :=
    fun b c hbc => congrArg Json.key hbc.name_eq
  constructor
  · rw [hfills.files, hfills'.files, List.forall₂_map_left_iff, List.forall₂_map_right_iff]
    exact (forall₂_lastsBy hkey hkind).imp fun b c hbc => hbc.file
  · rw [hfills.paths, hfills'.paths, List.forall₂_map_left_iff, List.forall₂_map_right_iff]
    exact (forall₂_firstsBy hkey hkind).imp fun b c hbc =>
      ⟨hkey b c hbc, hbc.name_eq, hbc.file.name⟩

/-- Plain models, and the folder of enumerations is in that of tables. -/
def nested : Options :=
  { lastWins with tableFolder := .text "model", enumFolder := .text "model/enum" }

theorem hasPlainFolders_nested : nested.HasPlainFolders := by
  intro kind
  cases kind with
  | table => exact ⟨"model", rfl, .inr (by decide)⟩
  | enumeration => exact ⟨"model/enum", rfl, .inr (by decide)⟩

theorem compile_relocated_redefined :
    nested.HasPlainFolders ∧ HasSegmentNames redefined ∧ Path.IsPlain "" ∧
      Path.IsPlain "packages/api" ∧ ∃ a b,
      (redefined.compile [] (nested.atSite ⟨"", ".ts"⟩)).1 = .ok a ∧
      (redefined.compile [] (nested.atSite ⟨"packages/api", ".gen.ts"⟩)).1 = .ok b ∧
      ∀ kind, (a.bucket kind).Moves ⟨"", ".ts"⟩ ⟨"packages/api", ".gen.ts"⟩ (b.bucket kind) := by
  have hhere : Path.IsPlain "" := .inl rfl
  have hthere : Path.IsPlain "packages/api" := .inr (by decide)
  have hok : (redefined.compile [] (nested.atSite ⟨"", ".ts"⟩)).1.isOk = true := by decide +kernel
  obtain ⟨a, ha⟩ := isOk_iff.1 hok
  obtain ⟨hiff, hmoves⟩ := @compile_relocated nested redefined ⟨"", ".ts"⟩
    ⟨"packages/api", ".gen.ts"⟩ [] [] hasPlainFolders_nested hasSegmentNames_redefined hhere hthere
  obtain ⟨b, hb⟩ := hiff.1 ⟨a, ha⟩
  exact ⟨hasPlainFolders_nested, hasSegmentNames_redefined, hhere, hthere, a, b, ha, hb,
    hmoves ha hb⟩

end Schema

end SchemaScribe
