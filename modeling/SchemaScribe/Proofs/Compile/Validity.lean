import Mathlib.Data.List.Pairwise
import Mathlib.Data.Set.List
import SchemaScribe.Proofs.Compile.Files
import SchemaScribe.Proofs.Schema.References

/-!
# Which documents are compiled

With the default options, a schema that is read from a document is compiled exactly when it is
valid (`compile_isOk_iff_valid`): its references resolve, no name is taken twice, and no two items
of different kinds have one file. No rule and no path can fail then, so that a column without a
type, a name or a file that is taken are the only reasons for an error.
-/

namespace SchemaScribe.Schema

variable {cwd : Path.Location} {options : Options} {schema : Schema}

/-- A schema is valid: its references resolve, and no two items are in each other's way. -/
structure Valid (options : Options) (schema : Schema) : Prop extends schema.Resolves where
  /-- The items of a kind have different names. -/
  names : schema.Pairwise fun a b => a.kind? = b.kind? → a.name? ≠ b.name?
  /-- No table has the file of an enumeration. -/
  files : ∀ {t e}, .table t ∈ schema → .enumeration e ∈ schema →
    options.fileName .table t.name ≠ options.fileName .enumeration e.name

/-- No name of a table holds a dot. -/
def HasNoDots (schema : Schema) : Prop :=
  ∀ t, .table t ∈ schema → ∀ name, t.name = .text name → .scalar '.' ∉ name

/-- The columns of each table have different names. -/
def HasDistinctColumns (schema : Schema) : Prop :=
  ∀ t, .table t ∈ schema → (t.columns.map Column.name).Nodup

theorem distinguishes_of_names (isRead : ∀ item ∈ schema, item.IsRead) (dots : schema.HasNoDots)
    (columns : schema.HasDistinctColumns)
    (names : schema.Pairwise fun a b => a.kind? = b.kind? → a.name? ≠ b.name?) :
    schema.Distinguishes where
  isRead := isRead
  columns ht := columns _ ht
  dots ht hname := dots _ ht _ hname
  tables {s t} hs ht hname := by
    have hsymm : Std.Symm fun a b : Item => a.kind? = b.kind? → a.name? ≠ b.name? :=
      ⟨fun a b hab hkind heq => hab hkind.symm heq.symm⟩
    by_contra hne
    exact names.forall hs ht (by simpa using hne) rfl (congrArg some hname)

/-! ## Valid schemas -/

/-- With the default options, every item of a schema whose references resolve has a file. -/
theorem exists_built (cwd : Path.Location) (h : schema.Distinguishes) (resolves : schema.Resolves) :
    ∃ built : List (Built cwd {} schema), built.map Built.item = schema := by
  have names := hasTextNames_of_isRead h.isRead
  have layout := Options.hasTextLayout_default
  have hitem : ∀ item ∈ schema, ∃ b : Built cwd {} schema, b.item = item := by
    intro item hmem
    have hread := h.isRead item hmem
    cases item with
    | other x => exact absurd hread id
    | table t =>
      have htypes := h.exists_typeOf_iff_resolves.2 resolves
      obtain ⟨file, hfile⟩ := (tableFile_isOk_iff layout cwd names hmem).2 <|
        fieldsOfColumns_isOk_iff.2 fun c hc => fieldsOf_isOk_iff.2 (htypes ⟨t, c⟩ ⟨hmem, hc⟩)
      exact ⟨⟨_, _, _, file, build_eq_ok_iff.2 ⟨rfl, rfl, hfile⟩⟩, rfl⟩
    | enumeration e =>
      obtain ⟨file, hfile⟩ := exists_enumerationFile layout hread
      exact ⟨⟨_, _, _, file, build_eq_ok_iff.2 ⟨rfl, rfl, hfile⟩⟩, rfl⟩
  have hrange : schema ∈ Set.range (List.map fun b : Built cwd {} schema => b.item) := by
    rw [Set.range_list_map]
    exact hitem
  exact hrange

/-- Different items of a kind have different names exactly when what is built from them does. -/
theorem pairwise_names_iff {built : List (Built cwd options schema)}
    (hitems : built.map Built.item = schema) :
    (schema.Pairwise fun a b => a.kind? = b.kind? → a.name? ≠ b.name?) ↔
      built.Pairwise fun a b => a.kind = b.kind → a.name ≠ b.name := by
  have hmap : (built.map Built.item).Pairwise (fun a b => a.kind? = b.kind? → a.name? ≠ b.name?) ↔
      built.Pairwise fun a b => a.item.kind? = b.item.kind? → a.item.name? ≠ b.item.name? :=
    List.pairwise_map
  rw [hitems] at hmap
  simpa only [Built.kind?_item, Built.name?_item, Option.some.injEq, ne_eq] using hmap

/-- Items are not in each other's way when those of a kind have different names and no table has the
file of an enumeration. -/
theorem compatible_of_valid (names : schema.HasTextNames) (valid : schema.Valid options)
    {built : List (Built cwd options schema)} (hitems : built.map Built.item = schema) :
    built.Pairwise Built.Compatible := by
  have hmem : ∀ b ∈ built, b.item ∈ schema := fun b hb => Built.item_mem hitems hb
  have hfiles : ∀ a ∈ built, ∀ b ∈ built, a.kind = .table → b.kind = .enumeration →
      a.file.name ≠ b.file.name := by
    intro a ha b hb hakind hbkind hfile
    obtain ⟨t, hat, htname⟩ := a.exists_table hakind
    obtain ⟨e, hbe, hename⟩ := b.exists_enumeration hbkind
    refine valid.files (hat ▸ hmem a ha) (hbe ▸ hmem b hb) ?_
    have hapath := a.fileName_eq
    have hbpath := b.fileName_eq
    rw [hakind] at hapath
    rw [hbkind, ← hfile] at hbpath
    rw [htname, hename, hapath, hbpath]
  refine ((pairwise_names_iff hitems).1 valid.names).imp_of_mem fun {a b} ha hb hab => ⟨?_, ?_⟩
  · intro hfile
    cases hakind : a.kind with
    | table =>
      cases hbkind : b.kind with
      | table => rfl
      | enumeration => exact absurd hfile (hfiles a ha b hb hakind hbkind)
    | enumeration =>
      cases hbkind : b.kind with
      | table => exact absurd hfile.symm (hfiles b hb a ha hbkind hakind)
      | enumeration => rfl
  · intro hkind hkey
    obtain ⟨s, hs⟩ := names _ (hmem a ha) _ a.name?_item
    obtain ⟨t, ht⟩ := names _ (hmem b hb) _ b.name?_item
    rw [hs, ht] at hkey
    have hst : s = t := by simpa [Json.key] using hkey
    exact absurd (by rw [hs, ht, hst]) (hab hkind)

/-- Of items that are not in each other's way, no table has the file of an enumeration. -/
theorem files_ne_of_compatible {built : List (Built cwd options schema)}
    (hitems : built.map Built.item = schema) (h : built.Pairwise Built.Compatible) {t : Table}
    {e : Enumeration} (ht : .table t ∈ schema) (he : .enumeration e ∈ schema) :
    options.fileName .table t.name ≠ options.fileName .enumeration e.name := by
  intro hfile
  rw [← hitems] at ht he
  obtain ⟨a, ha, hat⟩ := List.mem_map.1 ht
  obtain ⟨b, hb, hbe⟩ := List.mem_map.1 he
  have hakind := a.kind?_item
  have haname := a.name?_item
  have hbkind := b.kind?_item
  have hbname := b.name?_item
  rw [hat] at hakind haname
  rw [hbe] at hbkind hbname
  have hpaths := a.fileName_eq
  rw [← Option.some.inj hakind, ← Option.some.inj haname, hfile, Option.some.inj hbkind,
    Option.some.inj hbname, b.fileName_eq] at hpaths
  have hkinds := Built.kind_eq_of_compatible h ha hb (Except.ok.inj hpaths).symm
  rw [← Option.some.inj hakind, ← Option.some.inj hbkind] at hkinds
  cases hkinds

/-- **Which documents are compiled**: with the default options, a schema that is read from a document
is compiled exactly when it is valid, if no name of a table holds a dot and the columns of each
table have different names. Else there is an error. -/
theorem compile_isOk_iff_valid {document : Json} (h : ofJson document = .ok schema)
    (dots : schema.HasNoDots) (columns : schema.HasDistinctColumns) (cwd : Path.Location) :
    ((∃ output, (schema.compile cwd {}).1 = .ok output) ↔ schema.Valid {}) ∧
      (¬ schema.Valid {} → ∃ e, (schema.compile cwd {}).1 = .error e) := by
  have isRead := isRead_of_ofJson h
  have names := hasTextNames_of_isRead isRead
  have hiff : (∃ output, (schema.compile cwd {}).1 = .ok output) ↔ schema.Valid {} := by
    constructor
    · rintro ⟨output, hok⟩
      obtain ⟨-, built, hitems, hcompatible⟩ := compile_isOk_iff.1 ⟨output, hok⟩
      have hnames : schema.Pairwise fun a b => a.kind? = b.kind? → a.name? ≠ b.name? := by
        refine (pairwise_names_iff hitems).2 (hcompatible.imp fun hab hkind hname => ?_)
        exact absurd (hab.name hkind (congrArg Json.key hname)) (by decide)
      have hdistinguishes := distinguishes_of_names isRead dots columns hnames
      have hresolves : schema.Resolves := by
        refine hdistinguishes.exists_typeOf_iff_resolves.1 fun a ha => ?_
        exact fieldsOf_isOk_iff.1 (exists_fieldsOf_of_compile hok ha.table ha.column)
      refine { hresolves with names := hnames, files := fun ht he hfile => ?_ }
      exact files_ne_of_compatible hitems hcompatible ht he hfile
    · intro valid
      have hdistinguishes := distinguishes_of_names isRead dots columns valid.names
      obtain ⟨built, hitems⟩ := exists_built cwd hdistinguishes valid.toResolves
      exact compile_isOk_iff.2 ⟨checkNames_of_hasTextNames names, built, hitems,
        compatible_of_valid names valid hitems⟩
  exact ⟨hiff, fun hvalid => not_ok_iff.1 (fun hok => hvalid (hiff.1 hok))⟩

/-- A document with a table, an enumeration, and a table that refers to both. -/
def reviewDocument : Json :=
  .list
    [.object [("type", .text "table"), ("name", .text "Review"), ("columns", .list
        [.object [("name", .text "book"), ("type", .object
            [("kind", .text "relation"), ("table_name", .text "Book"), ("foreign_key", .text "isbn")])],
          .object [("name", .text "rating"), ("type", .object
            [("kind", .text "enum"), ("enum_name", .text "Rating")])]])],
      .object [("type", .text "enum"), ("name", .text "Rating"), ("items", .list [.text "GOOD"])],
      .object [("type", .text "table"), ("name", .text "Book"), ("columns", .list
        [.object [("name", .text "isbn"), ("type", .object
            [("kind", .text "chars"), ("length", .int 13)])]])]]

/-- The schema of that document. -/
def reviews : Schema :=
  [.table ⟨.text "Review",
      [⟨.text "book", .relation (.text "relation") (.text "Book") (.text "isbn"), []⟩,
        ⟨.text "rating", .enumeration (.text "enum") (.text "Rating"), []⟩]⟩,
    .enumeration ⟨.text "Rating", .list [.text "GOOD"]⟩,
    .table ⟨.text "Book", [⟨.text "isbn", .chars (.text "varchar") (.int 13), []⟩]⟩]

theorem compile_isOk_iff_valid_reviews :
    ofJson reviewDocument = .ok reviews ∧ HasNoDots reviews ∧ HasDistinctColumns reviews ∧
      (∃ output, (reviews.compile [] {}).1 = .ok output) ∧ Valid {} reviews := by
  have hread : ofJson reviewDocument = .ok reviews := by decide +kernel
  have hdots : HasNoDots reviews := by
    simp only [HasNoDots, reviews, List.mem_cons, List.not_mem_nil, or_false, reduceCtorEq, false_or]
    rintro t (ht | ht) name hname
    all_goals
      obtain rfl := Item.table.inj ht
      obtain rfl := Json.text.inj hname
      decide
  have hcolumns : HasDistinctColumns reviews := by
    simp only [HasDistinctColumns, reviews, List.mem_cons, List.not_mem_nil, or_false, reduceCtorEq,
      false_or]
    rintro t (ht | ht)
    all_goals
      obtain rfl := Item.table.inj ht
      decide
  have hok : (reviews.compile [] {}).1.isOk = true := by decide +kernel
  have hcompiled := isOk_iff.1 hok
  exact ⟨hread, hdots, hcolumns, hcompiled,
    (compile_isOk_iff_valid hread hdots hcolumns []).1.1 hcompiled⟩

end SchemaScribe.Schema
