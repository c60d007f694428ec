import SchemaScribe.Proofs.Compile.Buckets
import SchemaScribe.Proofs.Compile.Models

/-!
# The types of foreign keys

A relation is declared with the type of the column it refers to, in the first definition of the
table that it names (`keys_declared_alike`). Of several definitions the output holds the last one,
so that this is the type in the output when the first definition is also the last, which it always
is where names may not be taken twice. Where they may, the types can differ:
`redefined_key_declared_apart`.
-/

namespace SchemaScribe

namespace Schema

variable {cwd : Path.Location} {options : Options} {schema : Schema}

/-- The last table of a name. -/
def lastTable? (schema : Schema) (name : Name) : Option Table :=
  (schema.filterMap Item.table?).reverse.find? (·.name.key = name.key)

/-- The second field of the column `c` of the table `t` is declared with the type of the field
that the first column `d` of the table `u` has. -/
def DeclaredAlike (options : Options) (schema : Schema) (t : Table) (c : Column) (u : Table)
    (d : Name) : Prop :=
  ∃ foreign reference value before field, u.column? d = some foreign ∧
    schema.fieldsOf options t c = .ok [reference, value] ∧
    schema.fieldsOf options u foreign = .ok (before ++ [field]) ∧ field.name = foreign.name ∧
    TypeScript.typeName value.type = TypeScript.typeName field.type

/-- The output holds the file of the table, under the name of the table. -/
def HoldsTable (cwd : Path.Location) (options : Options) (schema : Schema) (output : Output)
    (t : Table) : Prop :=
  ∃ file ∈ output.tables.files, schema.tableFile cwd options t = .ok file ∧
    output.tables.path? t.name = some file.name

/-! ## A relation and the column it refers to -/

/-- A relation whose fields exist is declared like the column it refers to. -/
theorem declaredAlike_of_fieldsOf {t : Table} {c : Column} {name target key : Name}
    {fields : List Field} (hrelation : c.type = .relation name target key)
    (h : schema.fieldsOf options t c = .ok fields) :
    ∃ u, schema.table? target = some u ∧ schema.DeclaredAlike options t c u key := by
  obtain ⟨resolved, found, hresolved, hfound, rfl⟩ := (fieldsOf_relation_eq_ok_iff hrelation).1 h
  obtain ⟨⟨-, htable⟩, hcolumn⟩ := targetOf_eq_ok_iff.1 hresolved
  obtain ⟨other, hother, htype⟩ := exists_typeOf_target (hrelation ▸ hfound)
  obtain rfl := Except.ok.inj (hresolved.symm.trans hother)
  obtain ⟨before, field, hfields, hname, hfield⟩ :=
    exists_fieldsOf_of_typeOf options htype
  exact ⟨resolved.table, htable, resolved.column, _, _, before, field, hcolumn, h, hfields, hname,
    by rw [hfield]⟩

/-! ## Which definition is in the output -/

/-- Whether an item is a table of a name can be seen from what is built from it. -/
theorem any_table?_item (b : Built cwd options schema) (key : Json) :
    b.item.table?.any (·.name.key = key) = (decide (b.kind = .table) && decide (b.key = key)) := by
  have hkind := b.kind?_item
  have hname := b.name?_item
  unfold Built.key
  cases hitem : b.item with
  | other x => simp [hitem, Item.kind?] at hkind
  | table t =>
    rw [hitem] at hkind hname
    rw [← Option.some.inj hkind, ← Option.some.inj hname]
    simp [Item.table?]
  | enumeration e =>
    rw [hitem] at hkind
    rw [← Option.some.inj hkind]
    simp [Item.table?]

/-- The first table of a name among the items is the first among those of the kind. -/
theorem find?_table? (built : List (Built cwd options schema)) (key : Json) :
    ((built.map Built.item).filterMap Item.table?).find? (·.name.key = key) =
      ((Built.ofKind built .table).find? (·.key = key)).bind (·.item.table?) := by
  rw [List.filterMap_map, List.find?_filterMap, Built.ofKind, List.find?_filter]
  simp only [Function.comp_def, any_table?_item, Bool.decide_and, Bool.decide_eq_true]

theorem table?_eq {built : List (Built cwd options schema)}
    (hitems : built.map Built.item = schema) (name : Name) :
    schema.table? name =
      ((Built.ofKind built .table).find? (·.key = name.key)).bind (·.item.table?) := by
  have htable := find?_table? built name.key
  rwa [hitems] at htable

theorem lastTable?_eq {built : List (Built cwd options schema)}
    (hitems : built.map Built.item = schema) (name : Name) :
    schema.lastTable? name =
      ((Built.ofKind built .table).reverse.find? (·.key = name.key)).bind (·.item.table?) := by
  have hreverse := find?_table? built.reverse name.key
  rw [List.map_reverse, List.filterMap_reverse, hitems, Built.ofKind, List.filter_reverse]
    at hreverse
  exact hreverse

/-- A table is in the output when its file is and its name leads to it. -/
theorem holdsTable_of_item_eq {output : Output} {b : Built cwd options schema} {u : Table}
    (hitem : b.item.table? = some u) (hfile : b.file ∈ output.tables.files)
    (hpath : output.tables.path? b.name = some b.file.name) :
    schema.HoldsTable cwd options output u := by
  have htable : b.item = .table u := by
    unfold Item.table? at hitem
    split at hitem
    · next t ht => rw [ht, Option.some.inj hitem]
    · simp at hitem
  have hname := b.name?_item
  rw [htable] at hname
  rw [← Option.some.inj hname] at hpath
  exact ⟨b.file, hfile, b.tableFile_eq htable, hpath⟩

/-- Where names may not be taken twice, each table is the only one of its name, and the output
holds it. -/
theorem holdsTable_of_unique {output : Output}
    (h : (schema.compile cwd options).1 = .ok output)
    (hallow : options.allowDuplicates.isTruthy = false) {name : Name} {u : Table}
    (hu : schema.table? name = some u) :
    schema.lastTable? name = some u ∧ schema.HoldsTable cwd options output u := by
  obtain ⟨built, hitems, hcompatible, hkeeps⟩ := exists_keeps h hallow
  have hnodup := nodup_keys hcompatible hallow .table
  rw [table?_eq hitems, Option.bind_eq_some_iff] at hu
  obtain ⟨b, hb, hitem⟩ := hu
  obtain ⟨hmem, hkey⟩ := (find?_eq_some_iff_of_nodup hnodup).1 hb
  refine ⟨?_, holdsTable_of_item_eq hitem ?_ ?_⟩
  · have hreverse : ((Built.ofKind built .table).reverse.map Built.key).Nodup := by
      rw [List.map_reverse]
      exact List.nodup_reverse.2 hnodup
    rw [lastTable?_eq hitems,
      (find?_eq_some_iff_of_nodup hreverse).2 ⟨List.mem_reverse.2 hmem, hkey⟩, Option.bind_some,
      hitem]
  · have hfiles : output.tables.files = _ := hkeeps.files .table
    rw [hfiles]
    exact List.mem_map_of_mem hmem
  · have hpaths : output.tables.paths = _ := hkeeps.paths .table
    have hfind := (find?_eq_some_iff_of_nodup hnodup).2 ⟨hmem, rfl⟩
    rw [Bucket.path?, hpaths]
    unfold Built.entry
    rw [Entries.get?_map, Option.map_map]
    exact congrArg _ hfind

/-- Below relative folders, the output holds the last definition of each table. -/
theorem holdsTable_of_last (folders : options.HasRelativeFolders) (names : schema.HasTextNames)
    {output : Output} (h : (schema.compile cwd options).1 = .ok output) {name : Name} {u : Table}
    (hu : schema.lastTable? name = some u) : schema.HoldsTable cwd options output u := by
  obtain ⟨built, hitems, -, hfills⟩ := exists_fills folders names (Prod.ext h rfl)
  rw [lastTable?_eq hitems, Option.bind_eq_some_iff] at hu
  obtain ⟨b, hb, hitem⟩ := hu
  have hlast := mem_lastsBy_of_find?_reverse hb
  exact holdsTable_of_item_eq hitem (hfills.mem_files_of_last hlast)
    (hfills.path?_of_last folders hlast)

/-- **Foreign keys have one type**: in a schema that is compiled, the second field of a relation is
declared with the type of the column that it refers to in the first definition of the table. The
output holds this definition where names may not be taken twice, and below relative folders
whenever it is also the last. -/
theorem keys_declared_alike {output : Output} (h : (schema.compile cwd options).1 = .ok output)
    {t : Table} (ht : .table t ∈ schema) {c : Column} (hc : c ∈ t.columns)
    {name target key : Name} (hrelation : c.type = .relation name target key) :
    ∃ u, schema.table? target = some u ∧ schema.DeclaredAlike options t c u key ∧
      (options.allowDuplicates.isTruthy = false →
        schema.lastTable? target = some u ∧ schema.HoldsTable cwd options output u) ∧
      (options.HasRelativeFolders → schema.HasTextNames → schema.lastTable? target = some u →
        schema.HoldsTable cwd options output u) := by
  obtain ⟨fields, hfields⟩ := exists_fieldsOf_of_compile h ht hc
  obtain ⟨u, hu, halike⟩ := declaredAlike_of_fieldsOf hrelation hfields
  exact ⟨u, hu, halike, fun hallow => holdsTable_of_unique h hallow hu,
    fun folders names hlast => holdsTable_of_last folders names h hlast⟩

/-- A relation to a relation: the author of a post. -/
def notedAuthor : Column :=
  ⟨.text "by", .relation (.text "relation") (.text "Post") (.text "author"), []⟩

/-- A table of notes on posts. -/
def note : Table := ⟨.text "Note", [notedAuthor]⟩

/-- A schema with a chain of two relations. -/
def chained : Schema :=
  [.table note, .table post, .enumeration ⟨.text "User", .list [.text "ADMIN"]⟩,
    .table (userKeyedBy "int")]

theorem keys_declared_alike_chained :
    ∃ output, (chained.compile [] { style := .plain }).1 = .ok output ∧ .table note ∈ chained ∧
      notedAuthor ∈ note.columns ∧
      notedAuthor.type = .relation (.text "relation") (.text "Post") (.text "author") ∧ ∃ u,
        chained.table? (.text "Post") = some u ∧
        DeclaredAlike { style := .plain } chained note notedAuthor u (.text "author") ∧
        chained.lastTable? (.text "Post") = some u ∧
        HoldsTable [] { style := .plain } chained output u := by
  have hok : (chained.compile [] { style := .plain }).1.isOk = true := by decide +kernel
  obtain ⟨output, h⟩ := isOk_iff.1 hok
  have hnote : .table note ∈ chained := List.mem_cons_self
  have hcolumn : notedAuthor ∈ note.columns := List.mem_cons_self
  obtain ⟨u, hu, halike, hunique, -⟩ := keys_declared_alike h hnote hcolumn rfl
  obtain ⟨hlast, hholds⟩ := hunique rfl
  exact ⟨output, h, hnote, hcolumn, rfl, u, hu, halike, hlast, hholds⟩

/-- Where names may be taken twice, the second field of a relation and the field that it refers to
can have different types in the output. -/
theorem redefined_key_declared_apart :
    ∃ output, (redefined.compile [] lastWins).1 = .ok output ∧
      HoldsTable [] lastWins redefined output post ∧ author ∈ post.columns ∧
      author.type = .relation (.text "relation") (.text "User") (.text "id") ∧
      redefined.lastTable? (.text "User") = some (userKeyedBy "text") ∧
      HoldsTable [] lastWins redefined output (userKeyedBy "text") ∧
      ¬ DeclaredAlike lastWins redefined post author (userKeyedBy "text") (.text "id") := by
  obtain ⟨output, h⟩ := compile_redefined
  have hholds : ∀ {name u}, redefined.lastTable? name = some u →
      HoldsTable [] lastWins redefined output u :=
    fun hlast => holdsTable_of_last hasRelativeFolders_lastWins hasTextNames_redefined h hlast
  have hpost : redefined.lastTable? (.text "Post") = some post := by decide
  have huser : redefined.lastTable? (.text "User") = some (userKeyedBy "text") := by decide
  refine ⟨output, h, hholds hpost, List.mem_cons_self, rfl, huser, hholds huser, ?_⟩
  rintro ⟨foreign, reference, value, before, field, hforeign, hfields, hother, -, htype⟩
  have hid : (userKeyedBy "text").column? (.text "id") =
      some ⟨.text "id", .common (.text "text"), []⟩ := by decide
  obtain rfl := Option.some.inj (hid.symm.trans hforeign)
  have hauthor : redefined.fieldsOf lastWins post author =
      .ok [⟨.text "otm_author", .table (.text "User"), false, []⟩,
        ⟨.text "author", .scalar .number, false, []⟩] := by decide +kernel
  have hkey : redefined.fieldsOf lastWins (userKeyedBy "text")
      ⟨.text "id", .common (.text "text"), []⟩ =
        .ok ([] ++ [⟨.text "id", .scalar .text, false, []⟩]) := by decide +kernel
  have hvalues := Except.ok.inj (hauthor.symm.trans hfields)
  have hfield := List.append_inj_right' (Except.ok.inj (hkey.symm.trans hother)) rfl
  simp only [List.cons.injEq, and_true] at hvalues hfield
  obtain ⟨-, rfl⟩ := hvalues
  subst hfield
  exact absurd htype (by decide)

end Schema

end SchemaScribe
