import SchemaScribe.Proofs.Compile.Files
import SchemaScribe.Proofs.Compile.Styles

/-!
# What the file of a table depends on

The file of a table depends on which of its columns are required and, of all other items, on their
outlines alone (`compile_outline`): the outline of an enumeration has no members, and that of a
table has columns without flags and without the numbers in their types. Schemas with one outline
are compiled alike, and fail with the same error.

References are resolved in the outline of a schema as they are in the schema itself
(`typeAlong_outline`), so that in two schemas with one outline each chain of relations goes the same
way. A flag is read in one place only, of the column that a field stands for, and never at the far
end of a relation (`both_fieldsOf`).
-/

namespace SchemaScribe

/-- The type without its numbers. -/
def ColumnType.outline : ColumnType → ColumnType
  | .decimal name _ _ => .decimal name .null .null
  | .chars name _ => .chars name .null
  | type => type

/-- The column without its flags and the numbers of its type. -/
def Column.outline (column : Column) : Column := ⟨column.name, column.type.outline, []⟩

/-- The table with the outlines of its columns. -/
def Table.outline (table : Table) : Table :=
  { table with columns := table.columns.map Column.outline }

/-- The enumeration without members; a value that has no elements stays. -/
def Enumeration.outline (e : Enumeration) : Enumeration :=
  { e with members := match e.members.elements? with
    | some _ => .list []
    | none => e.members }

/-- What can be seen of an item from outside. -/
def Item.outline : Item → Item
  | .table t => .table t.outline
  | .enumeration e => .enumeration e.outline
  | .other x => .other x

/-- The column that a relation refers to, and its table, in outline. -/
def Target.outline (target : Target) : Target := ⟨target.table.outline, target.column.outline⟩

theorem ColumnType.outline_eq_relation_iff {type : ColumnType} {name table key : Name} :
    type.outline = .relation name table key ↔ type = .relation name table key := by
  cases type <;> simp [outline]

theorem ColumnType.check?_outline (type : ColumnType) : type.outline.check? = type.check? := by
  cases type <;> rfl

theorem Item.name?_outline (item : Item) : item.outline.name? = item.name? := by
  cases item <;> rfl

theorem Table.column?_outline (table : Table) (name : Name) :
    table.outline.column? name = (table.column? name).map Column.outline := by
  rw [column?, outline, List.find?_map]
  rfl

namespace Schema

variable {s t : Schema} {cwd : Path.Location} {options : Options}

/-- The items of a schema in outline. -/
def outline (schema : Schema) : Schema := schema.map Item.outline

/-! ## References in an outline -/

/-- The items of a kind in an outline, if `f` gives the outline of each. -/
theorem filterMap_outline {α : Type} {part? : Item → Option α} {f : α → α}
    (hpart : ∀ item : Item, part? item.outline = (part? item).map f) (schema : Schema) :
    schema.outline.filterMap part? = (schema.filterMap part?).map f := by
  rw [outline, List.filterMap_map, List.map_filterMap]
  exact List.filterMap_congr fun item _ => hpart item

theorem table?_outline (schema : Schema) (name : Name) :
    schema.outline.table? name = (schema.table? name).map Table.outline := by
  have hitem : ∀ item : Item, item.outline.table? = item.table?.map Table.outline := by
    intro item
    cases item <;> rfl
  rw [table?, filterMap_outline hitem, List.find?_map]
  rfl

theorem enumeration?_outline (schema : Schema) (name : Name) :
    schema.outline.enumeration? name = (schema.enumeration? name).map Enumeration.outline := by
  have hitem : ∀ item : Item,
      item.outline.enumeration? = item.enumeration?.map Enumeration.outline := by
    intro item
    cases item <;> rfl
  rw [enumeration?, filterMap_outline hitem, List.find?_map]
  rfl

theorem checkNames_outline (schema : Schema) : schema.outline.checkNames = schema.checkNames := by
  have hnames : schema.outline.filterMap Item.name? = schema.filterMap Item.name? := by
    rw [outline, List.filterMap_map]
    exact List.filterMap_congr fun item _ => item.name?_outline
  rw [checkNames, checkNames, unusableName?, hnames]
  rfl

theorem lookUp_map {α β : Type} (kind : ItemKind) (found : Option α) (name column : Name)
    (f : α → β) :
    lookUp kind (found.map f) name column = (lookUp kind found name column).map f := by
  unfold lookUp
  split
  · rfl
  · cases found <;> rfl

theorem enumerationOf_outline (schema : Schema) (name column : Name) :
    schema.outline.enumerationOf name column =
      (schema.enumerationOf name column).map Enumeration.outline := by
  rw [enumerationOf, enumeration?_outline, lookUp_map]
  rfl

/-- A relation refers to the outline of what it refers to. -/
theorem targetOf_outline (schema : Schema) (table key owner column : Name) :
    schema.outline.targetOf table key owner column =
      (schema.targetOf table key owner column).map Target.outline := by
  have htable : schema.outline.tableOf table column =
      (schema.tableOf table column).map Table.outline := by
    rw [tableOf, table?_outline, lookUp_map]
    rfl
  rw [targetOf, targetOf, htable]
  cases schema.tableOf table column with
  | error e => rfl
  | ok found =>
    simp only [Except.map, bind, Except.bind, Table.column?_outline]
    cases found.column? key with
    | none => rfl
    | some c => rfl

/-- **Along a chain** the search goes the same way in the outline of a schema. -/
theorem typeAlong_outline (schema : Schema) (chain : List Text) (type : ColumnType)
    (owner column : Name) :
    schema.outline.typeAlong chain type.outline owner column =
      schema.typeAlong chain type owner column := by
  induction chain, type, owner, column using typeAlong.induct schema with
  | case6 chain owner column name members =>
    change schema.outline.typeAlong chain (.enumeration name members) owner column = _
    rw [typeAlong, typeAlong, enumerationOf_outline]
    cases schema.enumerationOf members column with
    | error e => rfl
    | ok e => rfl
  | case7 chain owner column name table key hseen =>
    change schema.outline.typeAlong chain (.relation name table key) owner column = _
    rw [typeAlong_relation, typeAlong_relation, if_pos hseen, if_pos hseen]
  | case8 chain owner column name table key hseen e herror =>
    change schema.outline.typeAlong chain (.relation name table key) owner column = _
    rw [typeAlong_relation, typeAlong_relation, if_neg hseen, if_neg hseen, targetOf_outline,
      herror]
    rfl
  | case9 chain owner column name table key hseen target htarget ih =>
    change schema.outline.typeAlong chain (.relation name table key) owner column = _
    rw [typeAlong_relation, typeAlong_relation, if_neg hseen, if_neg hseen, targetOf_outline,
      htarget]
    exact ih
  | _ => simp only [ColumnType.outline, typeAlong]

/-! ## Two schemas with one outline -/

theorem typeOf_eq_of_outline (h : s.outline = t.outline) {type type' : ColumnType}
    (htype : type.outline = type'.outline) (owner column : Name) :
    s.typeOf type owner column = t.typeOf type' owner column := by
  rw [typeOf, typeOf, ← typeAlong_outline s, ← typeAlong_outline t, h, htype]

theorem both_targetOf (h : s.outline = t.outline) (table key owner column : Name) :
    Both (fun a b => a.table.name = b.table.name) (s.targetOf table key owner column)
      (t.targetOf table key owner column) := by
  have heq : (s.targetOf table key owner column).map Target.outline =
      (t.targetOf table key owner column).map Target.outline := by
    rw [← targetOf_outline, ← targetOf_outline, h]
  exact (Both.of_map_eq heq).mono fun a b hab => congrArg (fun target => target.table.name) hab

/-- Columns with one outline have fields of the same types; and whether a column is required is all
that is read of its flags. -/
theorem both_fieldsOf (h : s.outline = t.outline) {a b : Table} (hname : a.name = b.name)
    {c d : Column} (hcolumn : c.outline = d.outline) :
    Both (fun f g => f.map Field.type = g.map Field.type ∧ (c.isRequired = d.isRequired → f = g))
      (s.fieldsOf options a c) (t.fieldsOf options b d) := by
  obtain ⟨hcd, htype, -⟩ := Column.mk.inj hcolumn
  have hfound : s.typeOf c.type a.name c.name = t.typeOf d.type b.name d.name := by
    rw [hname, hcd]
    exact typeOf_eq_of_outline h htype b.name d.name
  have hreference : options.referenceName c = options.referenceName d := by
    rw [Options.referenceName, Options.referenceName, hcd]
  have hrules : options.rulesFor c = options.rulesFor d := by
    rw [Options.rulesFor, Options.rulesFor, ← c.type.check?_outline, htype,
      d.type.check?_outline, hcd]
  unfold fieldsOf
  rw [hfound, hreference, hrules, hname, hcd]
  split
  · next name target key hrelation =>
    have hrelation' : d.type = .relation name target key := by
      rw [← ColumnType.outline_eq_relation_iff, ← htype, hrelation]
      rfl
    rw [hrelation']
    refine (both_targetOf h target key b.name d.name).bind fun u v huv => ?_
    cases t.typeOf (.relation name target key) b.name d.name with
    | error e => exact .error e
    | ok found => exact .ok ⟨by simp [huv], fun hrequired => by rw [huv, hrequired]⟩
  · next hother =>
    split
    · next name target key hrelation =>
      refine absurd ?_ (hother name target key)
      rw [← ColumnType.outline_eq_relation_iff, htype, hrelation]
      rfl
    · cases t.typeOf d.type b.name d.name with
      | error e => exact .error e
      | ok found => exact .ok ⟨rfl, fun hrequired => by rw [hrequired]⟩

theorem both_fieldsOfColumns (h : s.outline = t.outline) {a b : Table} (hname : a.name = b.name)
    {cs ds : List Column} (hcolumns : cs.map Column.outline = ds.map Column.outline) :
    Both (fun f g => f.map Field.type = g.map Field.type ∧
        (cs.map Column.isRequired = ds.map Column.isRequired → f = g))
      (s.fieldsOfColumns options a cs) (t.fieldsOfColumns options b ds) := by
  induction cs generalizing ds with
  | nil =>
    obtain rfl := List.map_eq_nil_iff.1 hcolumns.symm
    exact .ok ⟨rfl, fun _ => rfl⟩
  | cons c rest ih =>
    obtain ⟨d, rest', rfl, hcolumn, hrest⟩ := List.map_eq_cons_iff.1 hcolumns.symm
    refine (both_fieldsOf h hname hcolumn.symm).bind fun f g hfg => ?_
    refine (ih hrest.symm).bind fun tail tail' htail => .ok ⟨?_, fun hrequired => ?_⟩
    · rw [List.map_append, List.map_append, hfg.1, htail.1]
    · obtain ⟨hhere, hbehind⟩ := List.cons_eq_cons.1 hrequired
      rw [hfg.2 hhere, htail.2 hbehind]

/-- **Tables with one outline** have files alike, and one file if the same columns are required. -/
theorem both_tableFile (h : s.outline = t.outline) (cwd : Path.Location) (options : Options)
    {a b : Table} (htable : a.outline = b.outline) :
    Both (fun f g => f.name = g.name ∧
        (a.columns.map Column.isRequired = b.columns.map Column.isRequired → f = g))
      (s.tableFile cwd options a) (t.tableFile cwd options b) := by
  obtain ⟨hname, hcolumns⟩ := Table.mk.inj htable
  have hboth : Both _ (s.fieldsOfTable options a) (t.fieldsOfTable options b) :=
    both_fieldsOfColumns h hname hcolumns
  rcases both_iff.1 hboth with ⟨e, hf, hg⟩ | ⟨f, g, hf, hg, htypes, hrequired⟩
  · rw [tableFile, tableFile, hf, hg]
    exact .error _
  · obtain ⟨body, hbody⟩ := exists_bodyLines_of_fields hf
    obtain ⟨body', hbody'⟩ := exists_bodyLines_of_fields hg
    have hhead : headOf cwd options a f = headOf cwd options b g := by
      simp only [headOf, hname, imported_congr htypes]
    rw [tableFile_of_bodyLines hf hbody, tableFile_of_bodyLines hg hbody', hhead]
    cases headOf cwd options b g with
    | error e => exact .error e
    | ok head =>
      refine .ok ⟨rfl, fun hsame => ?_⟩
      obtain rfl := hrequired hsame
      obtain rfl := Except.ok.inj (hbody.symm.trans hbody')
      rw [hname]

/-- Enumerations with one outline have files at one path. -/
theorem both_enumerationFile {e e' : Enumeration} (h : e.outline = e'.outline) :
    Both (fun f g => f.name = g.name) (enumerationFile options e) (enumerationFile options e') := by
  obtain ⟨hname, hmembers⟩ := Enumeration.mk.inj h
  unfold enumerationFile
  cases helements : e.members.elements? with
  | some members =>
    cases helements' : e'.members.elements? with
    | some members' =>
      rw [hname]
      cases options.fileName .enumeration e'.name with
      | error error => exact .error _
      | ok path => exact .ok rfl
    | none =>
      simp only [helements, helements'] at hmembers
      rw [← hmembers] at helements'
      cases helements'
  | none =>
    cases helements' : e'.members.elements? with
    | some members' =>
      simp only [helements, helements'] at hmembers
      rw [hmembers] at helements
      cases helements
    | none =>
      simp only [helements, helements'] at hmembers
      rw [hmembers]
      exact .error _

/-! ## Whole schemas -/

/-- The files are those of two tables at one position of the schemas, and they are the same if the
same columns of the tables are required. -/
def TablesAt (cwd : Path.Location) (options : Options) (s t : Schema) (f g : ModuleFile) : Prop :=
  ∃ (i : Nat) (a b : Table), s[i]? = some (Item.table a) ∧ t[i]? = some (Item.table b) ∧
    s.tableFile cwd options a = .ok f ∧ t.tableFile cwd options b = .ok g ∧
    (a.columns.map Column.isRequired = b.columns.map Column.isRequired → f = g)

/-- What the files of a kind have in common, but for their paths. -/
def OutlinedAlike (cwd : Path.Location) (options : Options) (s t : Schema) :
    ItemKind → ModuleFile → ModuleFile → Prop
  | .table => TablesAt cwd options s t
  | .enumeration => fun _ _ => True

theorem outline_eq_of_getElem? (h : s.outline = t.outline) {i : Nat} {item item' : Item}
    (hitem : s[i]? = some item) (hitem' : t[i]? = some item') : item.outline = item'.outline := by
  have hget : s.outline[i]? = t.outline[i]? := by rw [h]
  simpa [outline, hitem, hitem'] using hget

/-- Items at one position are built alike. -/
theorem both_build (h : s.outline = t.outline) {i : Nat} {item item' : Item}
    (hitem : s[i]? = some item) (hitem' : t[i]? = some item') :
    Both (BuildAlike (OutlinedAlike cwd options s t)) (s.build cwd options item)
      (t.build cwd options item') := by
  have heq := outline_eq_of_getElem? h hitem hitem'
  cases item with
  | other x =>
    cases item' with
    | other y => exact Item.other.inj heq ▸ .error _
    | _ => cases heq
  | table a =>
    cases item' with
    | table b =>
      have htable : a.outline = b.outline := Item.table.inj heq
      obtain ⟨hname, -⟩ := Table.mk.inj htable
      rcases both_iff.1 (both_tableFile h cwd options htable) with
        ⟨e, hf, hg⟩ | ⟨f, g, hf, hg, hpath, hsame⟩
      · rw [build, build, hf, hg]
        exact .error e
      · rw [build, build, hf, hg]
        exact .ok ⟨rfl, hname, hpath, i, a, b, hitem, hitem', hf, hg, hsame⟩
    | _ => cases heq
  | enumeration e =>
    cases item' with
    | enumeration e' =>
      have he : e.outline = e'.outline := Item.enumeration.inj heq
      obtain ⟨hname, -⟩ := Enumeration.mk.inj he
      exact (both_enumerationFile he).bind fun f g hfg => .ok ⟨rfl, hname, hfg, trivial⟩
    | _ => cases heq

/-- **What the file of a table depends on**: schemas with one outline are compiled alike. Both fail
with the same error, or both have the same entries and files at the same paths; and at each position
two tables of which the same columns are required have one file. -/
theorem compile_outline (h : s.outline = t.outline) (cwd : Path.Location) (options : Options) :
    Both (Output.Alike (OutlinedAlike cwd options s t)) (s.compile cwd options).1
      (t.compile cwd options).1 ∧
    ∀ (i : Nat) (a b : Table), s[i]? = some (Item.table a) → t[i]? = some (Item.table b) →
      a.columns.map Column.isRequired = b.columns.map Column.isRequired →
      s.tableFile cwd options a = t.tableFile cwd options b := by
  constructor
  · refine compile_alike (List.forall₂_iff_get.2 ⟨?_, fun i hi hi' => ?_⟩) ?_ rfl
    · have hlength : s.outline.length = t.outline.length := by rw [h]
      simpa [outline] using hlength
    · exact both_build h (List.getElem?_eq_getElem hi) (List.getElem?_eq_getElem hi')
    · rw [← checkNames_outline s, h, checkNames_outline]
  · intro i a b ha hb hsame
    have htable : a.outline = b.outline := Item.table.inj (outline_eq_of_getElem? h ha hb)
    rcases both_iff.1 (both_tableFile h cwd options htable) with
      ⟨e, hf, hg⟩ | ⟨f, g, hf, hg, -, hfg⟩
    · rw [hf, hg]
    · rw [hf, hg, hfg hsame]

/-- A table that refers to an enumeration and to a column of another table. -/
def review : Table :=
  ⟨.text "Review",
    [⟨.text "book", .relation (.text "relation") (.text "Book") (.text "isbn"), []⟩,
      ⟨.text "rating", .enumeration (.text "enum") (.text "Rating"), [⟨.text "null", .bool false⟩]⟩]⟩

/-- The table that it refers to, with flags and a length for its column. -/
def book (flags : List Attribute) (length : Int) : Table :=
  ⟨.text "Book", [⟨.text "isbn", .chars (.text "varchar") (.int length), flags⟩]⟩

/-- A schema of both, and one with other members, another flag and another length. -/
def opinions : Schema :=
  [.table review, .enumeration ⟨.text "Rating", .list [.text "GOOD"]⟩, .table (book [] 13)]

@[inherit_doc opinions]
def laterOpinions : Schema :=
  [.table review, .enumeration ⟨.text "Rating", .list [.text "FAIR", .text "POOR"]⟩,
    .table (book [⟨.text "null", .bool false⟩] 10)]

theorem compile_outline_opinions :
    opinions.outline = laterOpinions.outline ∧
      (∃ a b, (opinions.compile [] {}).1 = .ok a ∧ (laterOpinions.compile [] {}).1 = .ok b ∧
        a.Alike (OutlinedAlike [] {} opinions laterOpinions) b) ∧
      opinions.tableFile [] {} review = laterOpinions.tableFile [] {} review := by
  have h : opinions.outline = laterOpinions.outline := rfl
  obtain ⟨hboth, hsame⟩ := compile_outline h [] {}
  have hok : (opinions.compile [] {}).1.isOk = true := by decide +kernel
  have halike : ∃ a b, (opinions.compile [] {}).1 = .ok a ∧
      (laterOpinions.compile [] {}).1 = .ok b ∧
      a.Alike (OutlinedAlike [] {} opinions laterOpinions) b := by
    rcases both_iff.1 hboth with ⟨e, herror, -⟩ | halike
    · rw [herror] at hok
      cases hok
    · exact halike
  exact ⟨h, halike, hsame 0 review review rfl rfl rfl⟩

end Schema

end SchemaScribe
