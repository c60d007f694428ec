import Mathlib.Data.List.Nodup
import SchemaScribe.Proofs.Compile.ImportBlock
import SchemaScribe.Proofs.Compile.Saved

/-!
# The names that a model binds

A model binds the names of its imports and its own, and a class those of its libraries too. They
are all different exactly when each stands for one item and none is that of a library
(`nodup_boundNames_iff`). Items are told apart by their kinds as well, so that an enumeration may
be called like a table; a model that refers to both, or a table that refers to the enumeration of
its own name, then binds one name twice.
-/

namespace SchemaScribe

/-- A library of classes, with the names that are imported from it. -/
structure Library where
  path : String
  names : List String

namespace Library

/-- The import of a library. -/
def line (library : Library) : Text :=
  "import \x7b " ++ Text.joined ", " (library.names.map Text.ofString) ++ " \x7d from \"" ++
    library.path ++ "\";"

/-- The libraries of every class. -/
def all : List Library :=
  [⟨"class-transformer", ["ClassConstructor", "Transform", "Type", "plainToInstance"]⟩,
    ⟨"class-validator",
      ["IsNotEmpty", "IsNumber", "IsObject", "IsBoolean", "IsOptional", "IsISO8601", "IsString",
        "IsEnum", "ValidateNested", "IsArray", "ValidationError", "validateOrReject"]⟩]

/-- The imports at the head of every class are those of the libraries. -/
theorem libraryImports_eq : TypeScript.libraryImports = all.map line := by
  simp only [TypeScript.libraryImports, all, line, Text.joined, List.map, ← Text.ofString_append]
  rfl

/-- The names that are imported from the libraries. -/
def allNames : List Text := all.flatMap fun library => library.names.map Text.ofString

theorem nodup_allNames : allNames.Nodup := by decide

end Library

/-- The text of the model of a table up to its name: the imports, those of the libraries if it is a
class, and the word for what it is. -/
def headText (annotated : Bool) (imports : List Import) (table : Table) : Text :=
  Text.withLineEnds (imports.map Import.line) ++ "\n" ++
    (if annotated then
      Text.withLineEnds (Library.all.map Library.line) ++ Text.ofString "\nexport class "
    else Text.ofString "export interface ") ++ table.name.toText

/-- The names that the model of a table binds at the top: those of its imports, those of the
libraries if it is a class, and its own. -/
def boundNames (annotated : Bool) (imports : List Import) (table : Table) : List Text :=
  (imports.map fun i => i.name.toText) ++ (if annotated then Library.allNames else []) ++
    [table.name.toText]

namespace Schema

variable {cwd : Path.Location} {options : Options} {schema : Schema} {table : Table}
  {file : ModuleFile} {fields : List Field} {imports : List Import}
  {decoratorsOf : Field → List Text}

/-- The items for which a model has names: its table, and those that it imports. -/
def boundItems (table : Table) (imports : List Import) : List (ItemKind × Name) :=
  (.table, table.name) :: imports.map Import.item

/-- Every name of an item stands for one item. -/
def Unambiguous (table : Table) (imports : List Import) : Prop :=
  ∀ a ∈ boundItems table imports, ∀ b ∈ boundItems table imports,
    a.2.toText = b.2.toText → a = b

/-- No enumeration is called like a table in the same model. -/
def NoNamesakes (table : Table) (fields : List Field) : Prop :=
  ∀ field ∈ fields, ∀ name, field.type = .enumeration name →
    name ≠ table.name ∧ ∀ other ∈ fields, other.type ≠ .table name

/-- The text of a model begins with its imports and its name. -/
theorem IsModel.headText_prefix
    (model : IsModel cwd options schema table file fields imports decoratorsOf) :
    headText options.annotated imports table <+: file.content := by
  rw [model.content_eq, TypeScript.tableText, TypeScript.opening, headText]
  cases options.annotated with
  | false => simp
  | true => simp [Library.libraryImports_eq]

/-- No item is bound twice. -/
theorem AreNeeded.nodup_boundItems (needed : AreNeeded schema table fields decoratorsOf imports) :
    (boundItems table imports).Nodup := by
  refine List.nodup_cons.2 ⟨fun hmem => ?_, ?_⟩
  · rw [needed.firsts, List.mem_filter] at hmem
    simp at hmem
  · have honce := needed.once
    rw [← Function.comp_def, ← List.map_map] at honce
    exact honce.of_map importKey

/-- Names are bound once exactly when they stand for one item and are not those of libraries. -/
theorem AreNeeded.boundOnce_iff (annotated : Bool)
    (needed : AreNeeded schema table fields decoratorsOf imports) :
    (boundNames annotated imports table).Nodup ↔ Unambiguous table imports ∧
      (annotated = true → ∀ item ∈ boundItems table imports,
        item.2.toText ∉ Library.allNames) := by
  have hperm : (boundNames annotated imports table).Perm
      ((boundItems table imports).map (fun item => item.2.toText) ++
        if annotated then Library.allNames else []) := by
    rw [boundNames, boundItems, List.map_cons, List.map_map]
    exact List.perm_append_singleton _ _
  rw [hperm.nodup_iff, List.nodup_append', List.nodup_map_iff_inj_on needed.nodup_boundItems]
  cases annotated with
  | false => simp [Unambiguous]
  | true =>
    simp only [if_true, Library.nodup_allNames, true_and, forall_const]
    refine and_congr_right fun _ => ?_
    rw [List.disjoint_left, List.forall_mem_map]

/-- The names of all items are texts, if those of the schema are. -/
theorem IsModel.exists_text
    (model : IsModel cwd options schema table file fields imports decoratorsOf)
    (names : schema.HasTextNames) (htable : .table table ∈ schema) {item : ItemKind × Name}
    (hitem : item ∈ boundItems table imports) : ∃ t, item.2 = .text t := by
  rcases List.mem_cons.1 hitem with rfl | hitem
  · exact names _ htable _ rfl
  · obtain ⟨i, hi, rfl⟩ := List.mem_map.1 hitem
    obtain ⟨⟨field, hfield, hrefers⟩, -⟩ := model.exists_field hi
    exact (namesItem_of_mem_fields model.fields_eq hfield hrefers).exists_text names

/-- An item that a field refers to is bound, where names are texts. -/
theorem IsModel.mem_boundItems
    (model : IsModel cwd options schema table file fields imports decoratorsOf)
    (names : schema.HasTextNames) {field : Field} (hfield : field ∈ fields)
    {item : ItemKind × Name} (hitem : field.type.item? = some item) :
    item ∈ boundItems table imports := by
  by_cases hown : importKey item = importKey (.table, table.name)
  · have hkind : item.1 = .table := congrArg Prod.fst hown
    have hname : item.2 = table.name :=
      (TypeScript.typeName_of_item? hitem).symm.trans (model.typeName_eq names hfield hitem hown)
    exact List.mem_cons.2 (.inl (Prod.ext hkind hname))
  · obtain ⟨i, hi, rfl⟩ := model.exists_import hfield hitem hown
    exact List.mem_cons_of_mem _ (List.mem_map_of_mem hi)

/-- An item of a model is the table itself, or a field refers to it. -/
theorem IsModel.exists_field_of_bound
    (model : IsModel cwd options schema table file fields imports decoratorsOf)
    {item : ItemKind × Name} (hitem : item ∈ boundItems table imports) :
    item = (.table, table.name) ∨ ∃ field ∈ fields, field.type.item? = some item := by
  rcases List.mem_cons.1 hitem with rfl | hitem
  · exact .inl rfl
  · obtain ⟨i, hi, rfl⟩ := List.mem_map.1 hitem
    exact .inr (model.exists_field hi).1

/-- Without namesakes, an enumeration of a model has another name than its tables. -/
theorem IsModel.not_mem_of_noNamesakes
    (model : IsModel cwd options schema table file fields imports decoratorsOf)
    (hnone : NoNamesakes table fields) {name : Name}
    (h : (.enumeration, name) ∈ boundItems table imports) :
    (.table, name) ∉ boundItems table imports := by
  intro htable
  rcases model.exists_field_of_bound h with heq | ⟨field, hfield, hitem⟩
  · cases heq
  · obtain ⟨hne, hothers⟩ := hnone field hfield name (FieldType.item?_eq_enumeration_iff.1 hitem)
    rcases model.exists_field_of_bound htable with heq | ⟨other, hother, hitem⟩
    · exact hne (congrArg Prod.snd heq)
    · exact hothers other hother (FieldType.item?_eq_table_iff.1 hitem)

/-- Where names are texts, only an enumeration and a table can have one name. -/
theorem IsModel.unambiguous_iff
    (model : IsModel cwd options schema table file fields imports decoratorsOf)
    (names : schema.HasTextNames) (htable : .table table ∈ schema) :
    Unambiguous table imports ↔ NoNamesakes table fields := by
  have hown : (ItemKind.table, table.name) ∈ boundItems table imports := List.mem_cons_self
  constructor
  · intro hall field hfield name htype
    have hbound := model.mem_boundItems names hfield
      (FieldType.item?_eq_enumeration_iff.2 htype)
    refine ⟨?_, fun other hother htype => ?_⟩
    · rintro rfl
      cases hall _ hbound _ hown rfl
    · have hotherBound := model.mem_boundItems names hother
        (FieldType.item?_eq_table_iff.2 htype)
      cases hall _ hbound _ hotherBound rfl
  · intro hnone
    rintro ⟨kind, name⟩ ha ⟨otherKind, otherName⟩ hb htexts
    obtain ⟨s, rfl⟩ := model.exists_text names htable ha
    obtain ⟨t, rfl⟩ := model.exists_text names htable hb
    obtain rfl : s = t := htexts
    cases kind <;> cases otherKind
    · rfl
    · exact absurd ha (model.not_mem_of_noNamesakes hnone hb)
    · exact absurd hb (model.not_mem_of_noNamesakes hnone ha)
    · rfl

/-- **When a name is bound twice.** Every file of a table is a model of a table of the schema, with
the imports that it needs, and its text begins with them and with the name of the table. The names
that it binds there are all different exactly when every name of an item stands for one item and, in
a class, none is that of a library. Where names are texts, the former is to say that no enumeration
is called like a table in the same model. -/
theorem nodup_boundNames_iff {output : Output} (h : (schema.compile cwd options).1 = .ok output)
    (hfile : file ∈ output.tables.files) :
    ∃ table fields imports decoratorsOf, .table table ∈ schema ∧
      IsModel cwd options schema table file fields imports decoratorsOf ∧
      AreNeeded schema table fields decoratorsOf imports ∧
      headText options.annotated imports table <+: file.content ∧
      ((boundNames options.annotated imports table).Nodup ↔
        Unambiguous table imports ∧ (options.annotated = true →
          ∀ item ∈ boundItems table imports, item.2.toText ∉ Library.allNames)) ∧
      (schema.HasTextNames → (Unambiguous table imports ↔ NoNamesakes table fields)) := by
  obtain ⟨built, hitems, hrecords⟩ := exists_records (Prod.ext h rfl)
  obtain ⟨b, hb, rfl⟩ := (hrecords .table).files file hfile
  obtain ⟨hmem, hkind⟩ := Built.mem_ofKind.1 hb
  obtain ⟨table, hitem, -⟩ := b.exists_table hkind
  have htable : .table table ∈ schema := hitem ▸ Built.item_mem hitems hmem
  obtain ⟨fields, imports, decoratorsOf, model, needed⟩ := imports_exact (b.tableFile_eq hitem)
  exact ⟨table, fields, imports, decoratorsOf, htable, model, needed, model.headText_prefix,
    needed.boundOnce_iff options.annotated, fun names => model.unambiguous_iff names htable⟩

theorem nodup_boundNames_iff_club :
    club.HasTextNames ∧ ∃ output, (club.compile [] {}).1 = .ok output ∧
      ∃ file ∈ output.tables.files, ∃ table fields imports decoratorsOf, .table table ∈ club ∧
        IsModel [] {} club table file fields imports decoratorsOf ∧
        AreNeeded club table fields decoratorsOf imports ∧
        headText true imports table <+: file.content ∧
        ((boundNames true imports table).Nodup ↔ NoNamesakes table fields ∧
          ∀ item ∈ boundItems table imports, item.2.toText ∉ Library.allNames) := by
  have names : club.HasTextNames := by simp [HasTextNames, club, task, Item.name?]
  have hsome : ((club.compile [] {}).1.map fun output => output.tables.files.isEmpty) =
      .ok false := by decide +kernel
  obtain ⟨output, h⟩ := exists_map_eq_ok_iff.1 ⟨_, hsome⟩
  rw [h] at hsome
  obtain ⟨file, hfile⟩ := List.isEmpty_eq_false_iff_exists_mem.1 (Except.ok.inj hsome)
  obtain ⟨table, fields, imports, decoratorsOf, htable, model, needed, hhead, hiff, hnames⟩ :=
    nodup_boundNames_iff h hfile
  refine ⟨names, output, h, file, hfile, table, fields, imports, decoratorsOf, htable, model,
    needed, hhead, hiff.trans ?_⟩
  rw [hnames names]
  exact and_congr_right fun _ => forall_prop_of_true rfl

/-- A user with a role, which is an enumeration that is called like users. -/
def ranked : Table := ⟨.text "User", [⟨.text "role", .enumeration .null (.text "User"), []⟩]⟩

/-- Users and the roles by the same name. -/
def namesakes : Schema := [.enumeration roles, .table ranked]

/-- The interface of users. -/
def rankedFile : ModuleFile :=
  ⟨"ts-model/table/User.ts", "import \x7b User \x7d from '../enum/User'\n\n" ++
    "export interface User \x7b\n  role?: User\n\x7d"⟩

/-- A name is bound twice: by the import of the roles, and by the interface of the users. -/
theorem namesakes_bound_twice :
    ∃ output, (namesakes.compile [] { style := .plain }).1 = .ok output ∧
      output.tables.files = [rankedFile] ∧ ∃ fields imports decoratorsOf,
        IsModel [] { style := .plain } namesakes ranked rankedFile fields imports decoratorsOf ∧
        boundNames false imports ranked = [Text.ofString "User", Text.ofString "User"] ∧
        ¬ (boundNames false imports ranked).Nodup := by
  have hfiles : ((namesakes.compile [] { style := .plain }).1.map fun o => o.tables.files) =
      .ok [rankedFile] := by decide +kernel
  obtain ⟨output, h⟩ := exists_map_eq_ok_iff.1 ⟨_, hfiles⟩
  rw [h] at hfiles
  have htable : namesakes.tableFile [] { style := .plain } ranked = .ok rankedFile := by
    decide +kernel
  obtain ⟨fields, imports, decoratorsOf, model⟩ := exists_isModel htable
  have himported : (namesakes.fieldsOfTable { style := .plain } ranked).map
      (imported [importKey (.table, ranked.name)]) = .ok [(.enumeration, .text "User")] := by
    decide +kernel
  rw [model.fields_eq] at himported
  have hitems : imports.map Import.item = [(.enumeration, .text "User")] :=
    model.imports_eq.trans (Except.ok.inj himported)
  obtain ⟨i, rest, rfl, hitem, hrest⟩ := List.map_eq_cons_iff.1 hitems
  obtain rfl := List.map_eq_nil_iff.1 hrest
  have hname : i.name = .text "User" := congrArg Prod.snd hitem
  have hbound : boundNames false [i] ranked = [Text.ofString "User", Text.ofString "User"] := by
    rw [boundNames, List.map_singleton, hname]
    rfl
  refine ⟨output, h, Except.ok.inj hfiles, fields, [i], decoratorsOf, model, hbound, ?_⟩
  rw [hbound]
  decide

end Schema

end SchemaScribe
