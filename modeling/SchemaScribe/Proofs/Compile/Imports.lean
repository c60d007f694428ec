import SchemaScribe.Proofs.Compile.Buckets
import SchemaScribe.Proofs.Compile.Models
import SchemaScribe.Proofs.Path.Normal

/-!
# Imports

Every import of a generated model leads to a file of the same output (`imports_closed`): to the file
under the name that is imported, in the bucket of its kind. What is imported is an item of the
schema, since a field refers to it; the last item of its name has left a file; and the specifier
leads there, as the folders and the names are rows of segments.
-/

namespace SchemaScribe

namespace Options

/-- The folders are plain paths, and the file extension does not change the folder of a file. -/
structure HasPlainLayout (options : Options) : Prop where
  root : ∃ root, options.outputRoot = .text root ∧ Path.IsPlain root
  folder : ∀ kind, ∃ folder, options.folder kind = .text folder ∧ Path.IsPlain folder
  extension : ∀ extension, options.fileExtension = .text extension → Path.slash ∉ extension

variable {options : Options}

theorem HasPlainLayout.hasRelativeFolders (layout : options.HasPlainLayout) :
    options.HasRelativeFolders := by
  have hrelative : ∀ {path}, Path.IsPlain path → Path.isAbsolute path = false := by
    intro path hpath
    obtain ⟨way, hway, rfl⟩ := Path.isPlain_iff.1 hpath
    exact Path.isAbsolute_along fun s hs => (hway s hs).toIsPart
  refine ⟨?_, fun kind => ?_⟩
  · obtain ⟨root, hroot, hplain⟩ := layout.root
    exact ⟨root, hroot, hrelative hplain⟩
  · obtain ⟨folder, hfolder, hplain⟩ := layout.folder kind
    exact ⟨folder, hfolder, hrelative hplain⟩

/-- The path of a module goes along the segments of the folders and the name. -/
theorem modulePath_along {kind : ItemKind} {root folder : List Text}
    (hroot : options.outputRoot = .text (Path.along root))
    (hfolder : options.folder kind = .text (Path.along folder))
    (hrootParts : ∀ s ∈ root, Path.IsPart s) (hfolderParts : ∀ s ∈ folder, Path.IsPart s)
    {name : Text} (hname : Path.IsPart name) :
    options.modulePath kind (.text name) = .ok (Path.along (root ++ folder ++ [name])) := by
  have hbase : Layout.base (Path.along root) (Path.along folder) = Path.along (root ++ folder) := by
    unfold Layout.base
    by_cases hrootNil : root = []
    · subst hrootNil
      rfl
    · rw [if_neg (Path.along_ne_nil hrootParts hrootNil)]
      by_cases hfolderNil : folder = []
      · subst hfolderNil
        rw [List.append_nil]
        rfl
      · rw [if_neg (Path.along_ne_nil hfolderParts hfolderNil),
          Path.join_along hrootParts hfolderParts hfolderNil]
  have hjoin : Path.join (Path.along (root ++ folder)) name =
      Path.along (root ++ folder ++ [name]) :=
    Path.join_along (List.forall_mem_append.2 ⟨hrootParts, hfolderParts⟩)
      (b := [name]) (by simpa using hname) (by simp)
  have hne : name ≠ [] := hname.ne_empty
  rw [modulePath_text hroot hfolder, if_neg (by simp [hne]), hbase, Layout.place, if_neg hne, hjoin]

theorem HasPlainLayout.exists_modulePath (layout : options.HasPlainLayout) (kind : ItemKind) :
    ∃ base : List Text, (∀ s ∈ base, Path.IsSegment s) ∧ ∀ name, Path.IsSegment name →
      options.modulePath kind (.text name) = .ok (Path.along (base ++ [name])) := by
  obtain ⟨root, hroot, hrootPlain⟩ := layout.root
  obtain ⟨folder, hfolder, hfolderPlain⟩ := layout.folder kind
  obtain ⟨a, ha, rfl⟩ := Path.isPlain_iff.1 hrootPlain
  obtain ⟨b, hb, rfl⟩ := Path.isPlain_iff.1 hfolderPlain
  refine ⟨a ++ b, List.forall_mem_append.2 ⟨ha, hb⟩, fun name hname => ?_⟩
  exact modulePath_along hroot hfolder (fun s hs => (ha s hs).toIsPart)
    (fun s hs => (hb s hs).toIsPart) hname.toIsPart

/-- The path by which a module refers to another leads from its file to that of the other. -/
theorem HasPlainLayout.normalize_importPath (layout : options.HasPlainLayout)
    {cwd : Path.Location} {fromKind kind : ItemKind} {source target : Text}
    (hsource : Path.IsSegment source) (htarget : Path.IsSegment target)
    {sourceFile targetFile path : Text}
    (hsourceFile : options.fileName fromKind (.text source) = .ok sourceFile)
    (htargetFile : options.fileName kind (.text target) = .ok targetFile)
    (hpath : options.importPath cwd fromKind (.text source) kind (.text target) = .ok path) :
    ∃ extension, options.fileExtension = .text extension ∧
      Path.normalize (Path.join (Path.directory sourceFile) path) ++ extension = targetFile := by
  obtain ⟨a, ha, hamodule⟩ := layout.exists_modulePath fromKind
  obtain ⟨b, hb, hbmodule⟩ := layout.exists_modulePath kind
  have hsourceModule := hamodule source hsource
  have htargetModule := hbmodule target htarget
  obtain ⟨_, extension, hmodule, hextension, rfl⟩ := fileName_eq_ok_iff.1 hsourceFile
  obtain rfl := Except.ok.inj (hsourceModule.symm.trans hmodule)
  obtain ⟨_, _, hmodule', hextension', rfl⟩ := fileName_eq_ok_iff.1 htargetFile
  obtain rfl := Except.ok.inj (htargetModule.symm.trans hmodule')
  obtain rfl := Json.text.inj (hextension.symm.trans hextension')
  have hspecifier : path =
      Options.specifier cwd (Path.along (a ++ [source])) (Path.along (b ++ [target])) := by
    obtain ⟨_, h₁, hpath⟩ := bind_eq_ok_iff.1 hpath
    obtain ⟨_, h₂, hpath⟩ := bind_eq_ok_iff.1 hpath
    obtain rfl := Except.ok.inj (hsourceModule.symm.trans h₁)
    obtain rfl := Except.ok.inj (htargetModule.symm.trans h₂)
    exact (pure_eq_ok_iff.1 hpath).symm
  refine ⟨extension, hextension, ?_⟩
  rw [hspecifier, Path.normalize_join_specifier cwd ha hsource.no_slash
    (layout.extension extension hextension)
    (List.forall_mem_append.2 ⟨hb, by simpa using htarget⟩) (by simp)]

end Options

/-- An import of a model: the item, and the specifier of its module. -/
structure Import where
  kind : ItemKind
  name : Name
  specifier : Text
  deriving DecidableEq, Repr, Inhabited

namespace Import

/-- The line of an import. -/
def line (i : Import) : Text := TypeScript.importLine i.name i.specifier

/-- The import, in the given file, leads to a file of the output: to the one under its name, in the
bucket of its kind. -/
def LeadsInto (options : Options) (output : Output) (file : ModuleFile) (i : Import) : Prop :=
  ∃ target ∈ (output.bucket i.kind).files,
    (output.bucket i.kind).path? i.name = some target.name ∧
    ∃ extension, options.fileExtension = .text extension ∧
      Path.normalize (Path.join (Path.directory file.name) i.specifier) ++ extension = target.name

end Import

namespace Schema

variable {cwd : Path.Location} {options : Options} {schema : Schema}

/-- The names of all items are texts that can be segments of paths. -/
def HasSegmentNames (schema : Schema) : Prop :=
  ∀ item ∈ schema, ∀ name, item.name? = some name → ∃ t, name = .text t ∧ Path.IsSegment t

theorem HasSegmentNames.hasTextNames (names : schema.HasSegmentNames) : schema.HasTextNames := by
  intro item hitem name hname
  obtain ⟨t, ht, -⟩ := names item hitem name hname
  exact ⟨t, ht⟩

/-- The import lines are those of imports, each with the path from the model to the item. -/
theorem exists_imports {table : Name} {items : List (ItemKind × Name)} {lines : List Text}
    (h : importLines cwd options table items = .ok lines) :
    ∃ imports : List Import, lines = imports.map Import.line ∧
      imports.map (fun i => (i.kind, i.name)) = items ∧ ∀ i ∈ imports,
        options.importPath cwd .table table i.kind i.name = .ok i.specifier := by
  induction items generalizing lines with
  | nil =>
    obtain rfl := Except.ok.inj h
    exact ⟨[], rfl, rfl, by simp⟩
  | cons item rest ih =>
    obtain ⟨kind, name⟩ := item
    obtain ⟨path, hpath, h⟩ := bind_eq_ok_iff.1 h
    obtain ⟨tail, htail, h⟩ := bind_eq_ok_iff.1 h
    obtain rfl := pure_eq_ok_iff.1 h
    obtain ⟨imports, rfl, hitems, hpaths⟩ := ih htail
    refine ⟨⟨kind, name, path⟩ :: imports, rfl, ?_, List.forall_mem_cons.2 ⟨hpath, hpaths⟩⟩
    rw [List.map_cons, hitems]

/-- The output has a file for the name of every item. -/
theorem exists_file_of_mem (folders : options.HasRelativeFolders) (names : schema.HasTextNames)
    {output : Output} (h : (schema.compile cwd options).1 = .ok output) {item : Item}
    (hitem : item ∈ schema) {kind : ItemKind} (hkind : item.kind? = some kind) {name : Name}
    (hname : item.name? = some name) :
    ∃ target ∈ (output.bucket kind).files, (output.bucket kind).path? name = some target.name ∧
      options.fileName kind name = .ok target.name := by
  obtain ⟨built, hitems, -, hfills⟩ := exists_fills folders names (Prod.ext h rfl)
  rw [← hitems] at hitem
  obtain ⟨b, hb, rfl⟩ := List.mem_map.1 hitem
  obtain rfl := Option.some.inj (b.kind?_item.symm.trans hkind)
  obtain rfl := Option.some.inj (b.name?_item.symm.trans hname)
  have hbKind : b ∈ Built.ofKind built b.kind := Built.mem_ofKind.2 ⟨hb, rfl⟩
  -- The file that is left is that of the last item of the name.
  have hthere : ∃ a ∈ Built.ofKind built b.kind, a.key = b.key := ⟨b, hbKind, rfl⟩
  obtain ⟨last, hlast, hkey⟩ := exists_mem_lastsBy hthere
  obtain ⟨hlastMem, hlastKind⟩ := Built.mem_ofKind.1 (mem_of_mem_lastsBy hlast)
  have hfile := (Built.key_eq_iff folders (hfills.names last hlastMem) (hfills.names b hb)
    hlastKind).1 hkey
  refine ⟨last.file, hfills.mem_files_of_last hlast, ?_, ?_⟩
  · rw [hfills.path?_eq folders (hfills.names b hb), if_pos ⟨b, hbKind, rfl⟩, hfile]
  · rw [hfile, b.fileName_eq]

/-- **Imports are closed**: with a plain layout and items whose names are segments, every file of a
table is a model all of whose imports are items that its fields refer to, and lead to their files
in the output. -/
theorem imports_closed (layout : options.HasPlainLayout) (names : schema.HasSegmentNames)
    {output : Output} (h : (schema.compile cwd options).1 = .ok output) {file : ModuleFile}
    (hfile : file ∈ output.tables.files) :
    ∃ t fields body, ∃ imports : List Import, .table t ∈ schema ∧
      schema.tableFile cwd options t = .ok file ∧
      schema.fieldsOfTable options t = .ok fields ∧
      file.content = TypeScript.tableText options.annotated options.indent.toText
        (imports.map Import.line) t.name body ∧
      imports.map (fun i => (i.kind, i.name)) = imported [(.table, t.name.key)] fields ∧
      ∀ i ∈ imports, (∃ field ∈ fields, field.type.item? = some (i.kind, i.name)) ∧
        i.LeadsInto options output file := by
  have folders := layout.hasRelativeFolders
  have textNames := names.hasTextNames
  obtain ⟨built, hitems, -, hfills⟩ := exists_fills folders textNames (Prod.ext h rfl)
  obtain ⟨b, hb, hbkind, rfl⟩ := hfills.exists_of_mem_files .table hfile
  obtain ⟨t, hitem, htname⟩ := b.exists_table hbkind
  have ht : .table t ∈ schema := hitem ▸ Built.item_mem hitems hb
  have htable := b.tableFile_eq hitem
  obtain ⟨fields, body, lines, path, hfields, -, -, hlines, hpath, hcontent⟩ :=
    tableFile_eq_ok_iff.1 htable
  obtain ⟨imports, rfl, himported, hpaths⟩ := exists_imports hlines
  refine ⟨t, fields, body, imports, ht, htable, hfields, by rw [hcontent], himported, ?_⟩
  intro i hi
  have hmem : (i.kind, i.name) ∈ imported [(.table, t.name.key)] fields := by
    rw [← himported]
    exact List.mem_map_of_mem (f := fun i : Import => (i.kind, i.name)) hi
  obtain ⟨field, hfield, hrefers⟩ := exists_field_of_mem_imported hmem
  refine ⟨⟨field, hfield, hrefers⟩, ?_⟩
  obtain ⟨item, hitemMem, hkind, hname⟩ :=
    (namesItem_of_mem_fields hfields hfield hrefers).exists_item
  obtain ⟨target, htarget, htargetPath, htargetFile⟩ :=
    exists_file_of_mem folders textNames h hitemMem hkind hname
  obtain ⟨n, hn, hnSegment⟩ := names _ ht _ rfl
  obtain ⟨m, hm, hmSegment⟩ := names item hitemMem i.name hname
  refine ⟨target, htarget, htargetPath, ?_⟩
  have hspecifier := hpaths i hi
  rw [hn] at hpath hspecifier
  rw [hm] at htargetFile hspecifier
  exact layout.normalize_importPath hnSegment hmSegment (hcontent ▸ hpath) htargetFile hspecifier

theorem hasPlainLayout_lastWins : lastWins.HasPlainLayout where
  root := ⟨"ts-model", rfl, .inr (by decide)⟩
  folder kind := by
    cases kind with
    | table => exact ⟨"table", rfl, .inr (by decide)⟩
    | enumeration => exact ⟨"enum", rfl, .inr (by decide)⟩
  extension := by
    intro extension hextension
    obtain rfl := Json.text.inj hextension
    decide

theorem hasSegmentNames_redefined : HasSegmentNames redefined := by
  have huser : Path.IsSegment "User" := ⟨⟨by decide, by decide⟩, by decide, by decide⟩
  have hpost : Path.IsSegment "Post" := ⟨⟨by decide, by decide⟩, by decide, by decide⟩
  simp [HasSegmentNames, redefined, userKeyedBy, post, Item.name?, huser, hpost]

theorem imports_closed_redefined :
    lastWins.HasPlainLayout ∧ HasSegmentNames redefined ∧ ∃ output file,
      (redefined.compile [] lastWins).1 = .ok output ∧ file ∈ output.tables.files ∧
      ∃ t fields body, ∃ imports : List Import, .table t ∈ redefined ∧
        redefined.tableFile [] lastWins t = .ok file ∧
        redefined.fieldsOfTable lastWins t = .ok fields ∧
        file.content = TypeScript.tableText lastWins.annotated lastWins.indent.toText
          (imports.map Import.line) t.name body ∧
        imports.map (fun i => (i.kind, i.name)) = imported [(.table, t.name.key)] fields ∧
        ∀ i ∈ imports, (∃ field ∈ fields, field.type.item? = some (i.kind, i.name)) ∧
          i.LeadsInto lastWins output file := by
  obtain ⟨output, h⟩ := compile_redefined
  have hpost : .table post ∈ redefined := by simp [redefined]
  obtain ⟨file, hfile, -⟩ := exists_file_of_mem hasRelativeFolders_lastWins hasTextNames_redefined h
    hpost rfl rfl
  exact ⟨hasPlainLayout_lastWins, hasSegmentNames_redefined, output, file, h, hfile,
    imports_closed hasPlainLayout_lastWins hasSegmentNames_redefined h hfile⟩

end Schema

end SchemaScribe
