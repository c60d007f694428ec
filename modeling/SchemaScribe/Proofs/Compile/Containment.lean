import SchemaScribe.Proofs.Compile.Files
import SchemaScribe.Proofs.Compile.Saved
import SchemaScribe.Proofs.FileSystem.Touching
import SchemaScribe.Proofs.Path.Descent

/-!
# Files that stay below their folder

Under the default options the file of an item is named by the item, behind two folders. So the files
of a document stay below every folder to which they are written exactly when no name of an item is
an absolute path or leads up further than these two do down (`files_stay_iff`). Then the writing
changes no file outside, however it ends. Any text is a name, though, and one with enough `..` puts
its file next to the folder or above it (`intruders_leave`).
-/

namespace SchemaScribe

open SchemaScribe.Path (Location IsBelow Stays LeadsDown)

/-! ## The file of a name -/

/-- The folders that the default options put before the name of an item. -/
def ItemKind.way : ItemKind → List Text
  | .table => ["ts-model", "table"]
  | .enumeration => ["ts-model", "enum"]

/-- Under the default options a file is at the place of the name behind the folders of its kind. -/
theorem Options.fileName_default (kind : ItemKind) (name : Text) :
    fileName {} kind (.text name) =
      .ok (Layout.place (Path.along kind.way) name ++ Text.ofString ".ts") := by
  obtain ⟨folder, hfolder, hbase⟩ : ∃ folder, Options.folder {} kind = .text folder ∧
      Layout.base "ts-model" folder = Path.along kind.way := by
    cases kind <;> exact ⟨_, rfl, by decide⟩
  have hne : Path.along kind.way ≠ [] := by cases kind <;> decide
  have hpath := modulePath_text (show ({} : Options).outputRoot = .text "ts-model" from rfl)
    hfolder name
  rw [hbase, if_neg fun h => hne h.1] at hpath
  exact fileName_eq_ok_iff.2 ⟨_, _, hpath, rfl, rfl⟩

namespace Schema

variable {cwd : Location} {schema : Schema} {output : Output}

theorem isSegment_of_mem_way (kind : ItemKind) : ∀ s ∈ kind.way, Path.IsSegment s := by
  intro s hs
  cases kind <;> simp only [ItemKind.way, List.mem_cons, List.not_mem_nil, or_false] at hs <;>
    rcases hs with rfl | rfl <;> exact ⟨⟨by decide, by decide⟩, by decide, by decide⟩

/-- The path of a file is absolute exactly when the name is, and stays below exactly when the name
leads up at most twice. -/
theorem stays_of_built (b : Built cwd {} schema) {name : Text} (hname : b.name = .text name) :
    Path.isAbsolute b.file.name = Path.isAbsolute name ∧
      (Stays b.file.name ↔ LeadsDown 2 name) := by
  have hway := isSegment_of_mem_way b.kind
  have hne : b.kind.way ≠ [] := by cases b.kind <;> decide
  have hlength : b.kind.way.length = 2 := by cases b.kind <;> rfl
  have hextension : Path.slash ∉ Text.ofString ".ts" := by decide
  have hfile : b.file.name =
      Layout.place (Path.along b.kind.way) name ++ Text.ofString ".ts" := by
    have hpath := b.fileName_eq
    rw [hname, Options.fileName_default] at hpath
    exact (Except.ok.inj hpath).symm
  rw [hfile]
  constructor
  · rw [Path.isAbsolute_append_extension hextension,
      Layout.isAbsolute_place (Path.isAbsolute_along fun s hs => (hway s hs).toIsPart)]
  · rw [Path.stays_append_iff hextension (by decide), Path.leadsDown_place_iff hway hne, hlength]

/-! ## All files -/

/-- The files of an output are those of the items. -/
theorem Keeps.mem_files_iff {options : Options} {built : List (Built cwd options schema)}
    (h : Keeps built output) {file : ModuleFile} :
    file ∈ output.files ↔ ∃ b ∈ built, b.file = file := by
  have hbucket : ∀ kind, file ∈ (output.bucket kind).files ↔
      ∃ b ∈ built, b.kind = kind ∧ b.file = file := by
    intro kind
    simp only [h.files, List.mem_map, Built.mem_ofKind, and_assoc]
  have hfiles : file ∈ output.files ↔ file ∈ (output.bucket .enumeration).files ∨
      file ∈ (output.bucket .table).files := List.mem_append
  rw [hfiles, hbucket, hbucket]
  constructor
  · rintro (⟨b, hb, -, hfile⟩ | ⟨b, hb, -, hfile⟩) <;> exact ⟨b, hb, hfile⟩
  · rintro ⟨b, hb, hfile⟩
    cases hkind : b.kind with
    | enumeration => exact .inl ⟨b, hb, hkind, hfile⟩
    | table => exact .inr ⟨b, hb, hkind, hfile⟩

/-- A property of all files is one of all names, if it is so for each. -/
theorem forall_files_iff (names : schema.HasTextNames)
    (h : (schema.compile cwd {}).1 = .ok output) (onFile onName : Text → Prop)
    (heach : ∀ (b : Built cwd {} schema) (name : Text), b.name = .text name →
      (onFile b.file.name ↔ onName name)) :
    (∀ file ∈ output.files, onFile file.name) ↔
      ∀ item ∈ schema, ∀ name : Text, item.name? = some (.text name) → onName name := by
  obtain ⟨built, hitems, -, hkeeps⟩ := exists_keeps h rfl
  constructor
  · intro hfiles item hitem name hname
    obtain ⟨b, hb, rfl⟩ := List.mem_map.1 (hitems ▸ hitem)
    rw [Built.name?_item] at hname
    exact (heach b name (Option.some.inj hname)).1 (hfiles _ (hkeeps.mem_files_iff.2 ⟨b, hb, rfl⟩))
  · intro hnames file hfile
    obtain ⟨b, hb, rfl⟩ := hkeeps.mem_files_iff.1 hfile
    have hitem := Built.item_mem hitems hb
    obtain ⟨name, hname⟩ := names _ hitem _ (Built.name?_item b)
    exact (heach b name hname).2 (hnames _ hitem name (by rw [Built.name?_item, hname]))

/-- Each name of an item is a relative path that leads up at most twice further than it has led
down. -/
def NamesLeadDown (schema : Schema) : Prop :=
  ∀ item ∈ schema, ∀ name : Text, item.name? = some (.text name) → LeadsDown 2 name

/-- **Which files stay below their folder.** Under the default options, the paths of the files are
relative exactly when no name of an item is an absolute path, and each file is below every folder to
which it is written exactly when the names lead down, by the two folders that stand before them at
least. Then the writing changes nothing but below the folder, whether it fails or not. -/
theorem files_stay_iff {document : Json} (hread : ofJson document = .ok schema)
    (h : (schema.compile cwd {}).1 = .ok output) :
    ((∀ file ∈ output.files, Path.isAbsolute file.name = false) ↔
      ∀ item ∈ schema, ∀ name : Text, item.name? = some (.text name) →
        Path.isAbsolute name = false) ∧
    ((∀ file ∈ output.files, Stays file.name) ↔ schema.NamesLeadDown) ∧
    (schema.NamesLeadDown → ∀ (writer : Writer) (writing : OutputOptions) (fs : FileSystem)
      (folder : FilePath),
      (writing.atomic.isTruthy = true → writer.HasFreshNames fs folder output.files) →
      ∀ place, ¬ IsBelow (folder.place fs.cwd) place →
        (writer.writeAll writing fs output folder).2.2.file? place = fs.file? place) := by
  have names := hasTextNames_of_isRead (isRead_of_ofJson hread)
  have hstays : (∀ file ∈ output.files, Stays file.name) ↔ schema.NamesLeadDown :=
    forall_files_iff names h Stays (LeadsDown 2) fun b name hname => (stays_of_built b hname).2
  refine ⟨?_, hstays, ?_⟩
  · apply forall_files_iff names h (Path.isAbsolute · = false) (Path.isAbsolute · = false)
    intro b name hname
    rw [(stays_of_built b hname).1]
  · intro hdown writer writing fs folder hfresh place hplace
    apply Writer.file?_writeAll_of_away hfresh
    rintro file hfile rfl
    exact hplace (hstays.2 hdown file hfile fs.cwd folder)

/-- A document with an enumeration of one member. -/
def membersOf (name : String) : Json :=
  .object [("type", .text "enum"), ("name", .text name), ("items", .list [.text "ADMIN"])]

/-- The enumeration. -/
def adminsOf (name : String) : Item := .enumeration ⟨.text name, .list [.text "ADMIN"]⟩

/-- Names that lead up, but no further than down. -/
def neighbours : Schema := [adminsOf "../shared/Role", adminsOf "../../a/./../Role"]

theorem files_stay_iff_neighbours :
    ofJson (.list [membersOf "../shared/Role", membersOf "../../a/./../Role"]) = .ok neighbours ∧
      NamesLeadDown neighbours ∧ ∃ output, (neighbours.compile [] {}).1 = .ok output ∧
        ∀ file ∈ output.files, Stays file.name := by
  have hread : ofJson (.list [membersOf "../shared/Role", membersOf "../../a/./../Role"]) =
      .ok neighbours := by decide +kernel
  obtain ⟨output, h⟩ := isOk_iff.1
    (show (neighbours.compile [] {}).1.isOk = true by decide +kernel)
  have hdown : NamesLeadDown neighbours := by
    intro item hitem name hname
    simp only [neighbours, List.mem_cons, List.not_mem_nil, or_false] at hitem
    rcases hitem with rfl | rfl
    · obtain rfl := Json.text.inj (Option.some.inj hname)
      decide +kernel
    · obtain rfl := Json.text.inj (Option.some.inj hname)
      decide +kernel
  exact ⟨hread, hdown, output, h, (files_stay_iff hread h).2.1.2 hdown⟩

/-- Names that lead out of the folder. -/
def intruders : Schema := [adminsOf "../../../User", adminsOf "/tmp/User"]

/-- The files of `intruders`. -/
def intruderFiles : Output := (intruders.compile ["work"] {}).1.toOption.getD {}

/-- The paths of these files in the folder. -/
def intruderPaths : List FilePath :=
  [.ofText "out/ts-model/enum/../../../User.ts", .ofText "/tmp/User.ts"]

/-- A document is read and compiled, and its files are written; but one of their paths is absolute,
and none of them is below the folder to which they are written. -/
theorem intruders_leave :
    ofJson (.list [membersOf "../../../User", membersOf "/tmp/User"]) = .ok intruders ∧
      (intruders.compile ["work"] {}).1 = .ok intruderFiles ∧
      (∃ file ∈ intruderFiles.files, Path.isAbsolute file.name = true) ∧
      (scribe.writeAll {} workplace intruderFiles outFolder).1 = .ok intruderPaths ∧
      intruderPaths.map (·.place workplace.cwd) =
        ([["work", "User.ts"], ["tmp", "User.ts"]] : List Location) ∧
      ∀ path ∈ intruderPaths, ¬ IsBelow (outFolder.place workplace.cwd) (path.place workplace.cwd) ∧
        ((scribe.writeAll {} workplace intruderFiles outFolder).2.2.file?
          (path.place workplace.cwd)).isSome = true := by
  refine ⟨?_, ?_, ?_, ?_, ?_, ?_⟩ <;> decide +kernel

end Schema

end SchemaScribe
