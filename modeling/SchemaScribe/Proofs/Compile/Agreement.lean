import SchemaScribe.Proofs.Compile.Built
import SchemaScribe.Proofs.Model.Chain
import SchemaScribe.Proofs.Occurrence

/-!
# Schemas with the same references

What is built from an item depends on the rest of the schema only by the items that names stand for.
Two schemas in which every name stands for the same item build the same from each item
(`SameReferences.build_eq`), be it a file or an error. Where no two items of a kind have one name,
every order of the items gives such a schema (`sameReferences_of_perm`).
-/

namespace SchemaScribe

/-- The kind of an item and the key of its name, by which it is found. -/
def Item.label? (item : Item) : Option (ItemKind × Json) :=
  item.kind?.bind fun kind => item.name?.map fun name => (kind, name.key)

namespace Schema

/-- Every name stands for the same items in two schemas. -/
structure SameReferences (s t : Schema) : Prop where
  tables : ∀ name, s.table? name = t.table? name
  enumerations : ∀ name, s.enumeration? name = t.enumeration? name

namespace SameReferences

variable {s t : Schema} {cwd : Path.Location} {options : Options}

theorem symm (h : s.SameReferences t) : t.SameReferences s where
  tables name := (h.tables name).symm
  enumerations name := (h.enumerations name).symm

theorem targetOf_eq (h : s.SameReferences t) (table key owner column : Name) :
    s.targetOf table key owner column = t.targetOf table key owner column := by
  simp only [targetOf, tableOf, h.tables]

/-- The search for a type goes the same way in both schemas. -/
theorem typeAlong_eq (h : s.SameReferences t) (chain : List Text) (type : ColumnType)
    (owner column : Name) :
    s.typeAlong chain type owner column = t.typeAlong chain type owner column := by
  induction chain, type, owner, column using typeAlong.induct s with
  | case9 chain owner column name table key hseen target htarget ih =>
    have htarget' := h.targetOf_eq table key owner column ▸ htarget
    rw [typeAlong_relation, typeAlong_relation, if_neg hseen, if_neg hseen, htarget, htarget']
    exact ih
  | case8 chain owner column name table key hseen e herror =>
    have herror' := h.targetOf_eq table key owner column ▸ herror
    rw [typeAlong_relation, typeAlong_relation, if_neg hseen, if_neg hseen, herror, herror']
    rfl
  | case7 chain owner column name table key hseen =>
    rw [typeAlong_relation, typeAlong_relation, if_pos hseen, if_pos hseen]
  | _ => simp only [typeAlong, enumerationOf, h.enumerations]

theorem typeOf_eq (h : s.SameReferences t) (type : ColumnType) (owner column : Name) :
    s.typeOf type owner column = t.typeOf type owner column :=
  h.typeAlong_eq [] type owner column

theorem fieldsOf_eq (h : s.SameReferences t) (table : Table) (column : Column) :
    s.fieldsOf options table column = t.fieldsOf options table column := by
  simp only [fieldsOf, h.targetOf_eq, h.typeOf_eq]

theorem fieldsOfTable_eq (h : s.SameReferences t) (table : Table) :
    s.fieldsOfTable options table = t.fieldsOfTable options table := by
  unfold fieldsOfTable
  induction table.columns with
  | nil => rfl
  | cons column rest ih => simp only [fieldsOfColumns, h.fieldsOf_eq, ih]

theorem tableFile_eq (h : s.SameReferences t) (table : Table) :
    s.tableFile cwd options table = t.tableFile cwd options table := by
  simp only [tableFile, h.fieldsOfTable_eq]

/-- **The same is built from each item** of two schemas in which names stand for the same. -/
theorem build_eq (h : s.SameReferences t) (item : Item) :
    s.build cwd options item = t.build cwd options item := by
  cases item with
  | table table => simp only [build, h.tableFile_eq]
  | enumeration e => rfl
  | other x => rfl

end SameReferences

end Schema

namespace Built

variable {s t schema : Schema} {cwd : Path.Location} {options : Options}

theorem label?_item (b : Built cwd options schema) :
    b.item.label? = some (b.kind, b.name.key) := by
  rw [Item.label?, b.kind?_item, b.name?_item]
  rfl

/-- The same is built from an item of a schema with the same references. -/
def transport (h : s.SameReferences t) (b : Built cwd options s) : Built cwd options t :=
  { b with build_eq := by rw [← h.build_eq]; exact b.build_eq }

end Built

namespace Schema

/-! ## Items in another order -/

variable {s t : Schema}

/-- Where no two items of a kind have one name, the items of a kind have different keys; `part?` are
the items of the kind. -/
theorem nodup_map_key_of_labels {α : Type} {part? : Item → Option α} {key : α → Json}
    {kind : ItemKind} (hpart : ∀ item, (part? item).map key =
      (item.label?.filter (·.1 = kind)).map Prod.snd)
    (h : (s.filterMap Item.label?).Nodup) : ((s.filterMap part?).map key).Nodup := by
  have hkeys : (s.filterMap part?).map key =
      (s.filterMap Item.label?).filterMap fun label =>
        (some label).filter (·.1 = kind) |>.map Prod.snd := by
    rw [List.map_filterMap, List.filterMap_filterMap]
    refine List.filterMap_congr fun item _ => ?_
    rw [hpart]
    cases item.label? <;> rfl
  rw [hkeys]
  refine h.filterMap fun a b k ha hb => ?_
  simp only [Option.filter_some, decide_eq_true_eq, Option.mem_def, Option.map_eq_some_iff,
    Option.ite_none_right_eq_some, Option.some.injEq] at ha hb
  obtain ⟨_, ⟨hakind, rfl⟩, hak⟩ := ha
  obtain ⟨_, ⟨hbkind, rfl⟩, hbk⟩ := hb
  exact Prod.ext (hakind.trans hbkind.symm) (hak.trans hbk.symm)

/-- **Order has no say in references**, where no two items of a kind have one name. -/
theorem sameReferences_of_perm (hperm : s.Perm t) (h : (s.filterMap Item.label?).Nodup) :
    s.SameReferences t where
  tables name := by
    have hpart : ∀ item, (Item.table? item).map (fun table => table.name.key) =
        (item.label?.filter (·.1 = .table)).map Prod.snd := by
      intro item
      cases item <;> rfl
    have hkeys : ((s.filterMap Item.table?).map fun table => table.name.key).Nodup :=
      nodup_map_key_of_labels hpart h
    exact find?_eq_of_perm (hperm.filterMap _) hkeys name.key
  enumerations name := by
    have hpart : ∀ item, (Item.enumeration? item).map (fun e => e.name.key) =
        (item.label?.filter (·.1 = .enumeration)).map Prod.snd := by
      intro item
      cases item <;> rfl
    have hkeys : ((s.filterMap Item.enumeration?).map fun e => e.name.key).Nodup :=
      nodup_map_key_of_labels hpart h
    exact find?_eq_of_perm (hperm.filterMap _) hkeys name.key

end Schema

end SchemaScribe
