import Mathlib.Data.List.Nodup
import Mathlib.Logic.Relation
import SchemaScribe.Proofs.Model.Chain
import SchemaScribe.Proofs.Schema.Items
import SchemaScribe.Proofs.Schema.Reading

/-!
# Schemas whose references resolve

All columns of a schema have types exactly when its references resolve
(`exists_typeOf_iff_resolves`): enumerations and columns are there, and no relation leads into a
cycle.

The search along a chain remembers texts and not columns. Where the names of tables hold no dot,
and names tell tables and columns apart, a text stands for one column (`Distinguishes.link_inj`), so
that the search fails on a cycle and on nothing else. In one direction the search itself is an
induction on the relations that it follows (`not_cycle_of_typeAlong`); in the other, the columns
that it remembers lead to the one where it stands (`exists_typeAlong`).
-/

namespace SchemaScribe

/-- A row that does not hold an element ends where the element first stands. -/
theorem append_cons_inj_of_not_mem {α : Type} {x : α} {s t c d : List α} (hs : x ∉ s) (ht : x ∉ t)
    (h : s ++ x :: c = t ++ x :: d) : s = t ∧ c = d := by
  rcases List.append_eq_append_iff.1 h with ⟨more, rfl, htail⟩ | ⟨more, rfl, htail⟩
  · cases more with
    | nil => simpa using htail
    | cons y rest =>
      obtain ⟨rfl, -⟩ := List.cons_eq_cons.1 htail
      simp at ht
  · cases more with
    | nil => simpa using htail.symm
    | cons y rest =>
      obtain ⟨rfl, -⟩ := List.cons_eq_cons.1 htail
      simp at hs

namespace Schema

/-- A column of a table of the schema. -/
structure IsColumn (schema : Schema) (a : Target) : Prop where
  table : .table a.table ∈ schema
  column : a.column ∈ a.table.columns

/-- The column `a` is a relation to the column `b` of the schema. -/
structure Refers (schema : Schema) (a b : Target) : Prop where
  isColumn : schema.IsColumn b
  names : ∃ name, a.column.type = .relation name b.table.name b.column.name

/-- The references of a schema resolve. -/
structure Resolves (schema : Schema) : Prop where
  /-- The enumeration of every column is there. -/
  enumerations : ∀ {a}, schema.IsColumn a → ∀ {name members},
    a.column.type = .enumeration name members →
      ∃ e, .enumeration e ∈ schema ∧ e.name = members
  /-- Every relation names a table and one of its columns. -/
  relations : ∀ {a}, schema.IsColumn a → ∀ {name target key},
    a.column.type = .relation name target key →
      ∃ t, .table t ∈ schema ∧ t.name = target ∧ ∃ c ∈ t.columns, c.name = key
  /-- No column leads into a cycle of relations. -/
  acyclic : ∀ {a}, schema.IsColumn a → ∀ {b}, Relation.ReflTransGen schema.Refers a b →
    ¬ Relation.TransGen schema.Refers b b

/-- The names of a schema that was read tell its tables and the columns of each apart, and no name
of a table holds a dot. -/
structure Distinguishes (schema : Schema) : Prop where
  isRead : ∀ item ∈ schema, item.IsRead
  tables : ∀ {s t}, .table s ∈ schema → .table t ∈ schema → s.name = t.name → s = t
  columns : ∀ {t}, .table t ∈ schema → (t.columns.map Column.name).Nodup
  dots : ∀ {t name}, .table t ∈ schema → t.name = .text name → .scalar '.' ∉ name

variable {schema : Schema} {a b : Target} {name : Text}

theorem enumeration?_isSome_iff :
    (schema.enumeration? (.text name)).isSome ↔
      ∃ e, .enumeration e ∈ schema ∧ e.name = .text name := by
  simp only [enumeration?, List.find?_isSome, mem_filterMap_enumeration?, decide_eq_true_eq]
  exact exists_congr fun e => and_congr_right fun _ => Json.key_eq_text_iff

theorem isRelation_of_refers (hab : schema.Refers a b) : a.column.type.IsRelation := by
  obtain ⟨-, type, htype⟩ := hab
  exact ⟨type, _, _, htype⟩

/-- The links of a chain belong to columns from which relations lead to the column `a`. -/
def LeadsTo (schema : Schema) (chain : List Text) (a : Target) : Prop :=
  ∀ seen ∈ chain, ∃ p, schema.IsColumn p ∧ link p.table.name p.column.name = seen ∧
    Relation.TransGen schema.Refers p a

/-- **One step** of a search: if the chain leads to the column where the search stands, it does so
at the next column too. -/
theorem LeadsTo.step {chain : List Text} (hchain : schema.LeadsTo chain a)
    (ha : schema.IsColumn a) (hab : schema.Refers a b) :
    schema.LeadsTo (chain ++ [link a.table.name a.column.name]) b := by
  intro seen hseen
  rcases List.mem_append.1 hseen with hseen | hseen
  · obtain ⟨p, hp, hlink, hpa⟩ := hchain seen hseen
    exact ⟨p, hp, hlink, hpa.tail hab⟩
  · exact ⟨a, ha, (List.mem_singleton.1 hseen).symm, Relation.TransGen.single hab⟩

namespace Distinguishes

theorem column_isRead (h : schema.Distinguishes) (ha : schema.IsColumn a) : a.column.IsRead :=
  (h.isRead _ ha.table).2 _ ha.column

/-! ## Names and what they stand for -/

theorem table?_eq_some_iff (h : schema.Distinguishes) {t : Table} :
    schema.table? (.text name) = some t ↔ .table t ∈ schema ∧ t.name = .text name := by
  have hfound : ∀ {s}, schema.table? (.text name) = some s →
      .table s ∈ schema ∧ s.name = .text name := by
    intro s hs
    have hkey := List.find?_some hs
    rw [decide_eq_true_eq] at hkey
    exact ⟨mem_of_table?_eq_some hs, Json.key_eq_text_iff.1 hkey⟩
  refine ⟨hfound, ?_⟩
  rintro ⟨ht, hname⟩
  have hsome : (schema.table? (.text name)).isSome :=
    List.find?_isSome.2 ⟨t, mem_filterMap_table?.2 ht, by rw [hname, decide_eq_true_eq]⟩
  obtain ⟨s, hs⟩ := Option.isSome_iff_exists.1 hsome
  obtain ⟨hsmem, hsname⟩ := hfound hs
  rw [hs, h.tables hsmem ht (hsname.trans hname.symm)]

theorem column?_eq_some_iff (h : schema.Distinguishes) {t : Table} (ht : .table t ∈ schema)
    {c : Column} : t.column? (.text name) = some c ↔ c ∈ t.columns ∧ c.name = .text name := by
  have hfound : ∀ {d}, t.column? (.text name) = some d → d ∈ t.columns ∧ d.name = .text name := by
    intro d hd
    have hequals := List.find?_some hd
    exact ⟨List.mem_of_find?_eq_some hd, Json.equals_text_iff.1 hequals⟩
  refine ⟨hfound, ?_⟩
  rintro ⟨hc, hname⟩
  have hsome : (t.column? (.text name)).isSome :=
    List.find?_isSome.2 ⟨c, hc, Json.equals_text_iff.2 hname⟩
  obtain ⟨d, hd⟩ := Option.isSome_iff_exists.1 hsome
  obtain ⟨hdmem, hdname⟩ := hfound hd
  rw [hd, List.inj_on_of_nodup_map (h.columns ht) hdmem hc (hdname.trans hname.symm)]

/-- What a relation is resolved to is the column that it refers to. -/
theorem targetOf_eq_ok_iff_refers (h : schema.Distinguishes) (ha : schema.IsColumn a) {type : Json}
    {target key : Name} (htype : a.column.type = .relation type target key) (owner column : Name) :
    schema.targetOf target key owner column = .ok b ↔ schema.Refers a b := by
  have hread := (h.column_isRead ha).type
  rw [htype] at hread
  obtain ⟨⟨target, rfl⟩, key, rfl⟩ := hread
  rw [targetOf_eq_ok_iff, h.table?_eq_some_iff]
  constructor
  · rintro ⟨⟨-, ht, htname⟩, hc⟩
    obtain ⟨hcmem, hcname⟩ := (h.column?_eq_some_iff ht).1 hc
    exact ⟨⟨ht, hcmem⟩, type, by rw [htype, htname, hcname]⟩
  · rintro ⟨⟨ht, hc⟩, other, hnames⟩
    rw [htype] at hnames
    injection hnames with _ htname hcname
    exact ⟨⟨rfl, ht, htname.symm⟩, (h.column?_eq_some_iff ht).2 ⟨hc, hcname.symm⟩⟩

/-- The link of a column tells it from all others. -/
theorem link_inj (h : schema.Distinguishes) (ha : schema.IsColumn a) (hb : schema.IsColumn b)
    (hlink : link a.table.name a.column.name = link b.table.name b.column.name) : a = b := by
  obtain ⟨s, hs⟩ := (h.isRead _ ha.table).1
  obtain ⟨t, ht⟩ := (h.isRead _ hb.table).1
  obtain ⟨c, hc⟩ := (h.column_isRead ha).name
  obtain ⟨d, hd⟩ := (h.column_isRead hb).name
  rw [hs, ht, hc, hd] at hlink
  have htexts : s ++ .scalar '.' :: c = t ++ .scalar '.' :: d := by
    simpa [link, Json.toText, Text.ofString, Text.ofChars] using hlink
  obtain ⟨rfl, rfl⟩ := append_cons_inj_of_not_mem (h.dots ha.table hs) (h.dots hb.table ht) htexts
  have htables := h.tables ha.table hb.table (hs.trans ht.symm)
  have hcolumns := List.inj_on_of_nodup_map (h.columns hb.table) (htables ▸ ha.column) hb.column
    (hc.trans hd.symm)
  obtain ⟨ta, ca⟩ := a
  obtain ⟨tb, cb⟩ := b
  exact congrArg₂ Target.mk htables hcolumns

/-! ## Chains -/

/-- From a column that has a type, no relations lead into a cycle. -/
theorem not_cycle_of_typeAlong (h : schema.Distinguishes) (ha : schema.IsColumn a)
    {chain : List Text} {found : FieldType}
    (hfound : schema.typeAlong chain a.column.type a.table.name a.column.name = .ok found)
    (hab : Relation.ReflTransGen schema.Refers a b) : ¬ Relation.TransGen schema.Refers b b := by
  refine typeAlong_induction (fun _ type _ _ => ∀ a, schema.IsColumn a → a.column.type = type →
    ∀ b, Relation.ReflTransGen schema.Refers a b → ¬ Relation.TransGen schema.Refers b b)
    ?_ ?_ hfound a ha rfl b hab
  · rintro chain type owner column hlast - a ha rfl b hab hcycle
    have hnone : ∀ c, ¬ schema.Refers a c := fun c hac => hlast (isRelation_of_refers hac)
    rcases hab.cases_head with rfl | ⟨c, hac, -⟩
    · obtain ⟨c, hac, -⟩ := Relation.TransGen.head'_iff.1 hcycle
      exact hnone c hac
    · exact hnone c hac
  · intro chain owner column type target key resolved _ hresolved ih a ha htype b hab hcycle
    have hrefers := (h.targetOf_eq_ok_iff_refers ha htype owner column).1 hresolved
    -- A relation refers to one column, so every way from `a` goes on from there.
    have hnext : ∀ c, schema.Refers a c → c = resolved := by
      intro c hac
      have hc := (h.targetOf_eq_ok_iff_refers ha htype owner column).2 hac
      exact Except.ok.inj (hc.symm.trans hresolved)
    rcases hab.cases_head with rfl | ⟨c, hac, hcb⟩
    · obtain ⟨c, hac, hca⟩ := Relation.TransGen.head'_iff.1 hcycle
      obtain rfl := hnext c hac
      exact ih c hrefers.isColumn rfl a hca hcycle
    · obtain rfl := hnext c hac
      exact ih c hrefers.isColumn rfl b hcb hcycle

/-- A column that is no relation has a type exactly when its enumeration is there, if it has one. -/
theorem typeOf_isOk_iff (h : schema.Distinguishes) (ha : schema.IsColumn a)
    (hlast : ¬ a.column.type.IsRelation) (owner column : Name) :
    (∃ found, schema.typeOf a.column.type owner column = .ok found) ↔
      ∀ type members, a.column.type = .enumeration type members →
        ∃ e, .enumeration e ∈ schema ∧ e.name = members := by
  have hread := (h.column_isRead ha).type
  cases htype : a.column.type with
  | relation type target key => exact absurd ⟨type, target, key, htype⟩ hlast
  | other x =>
    rw [htype] at hread
    exact absurd hread id
  | decimal type precision scale => simp [typeOf, typeAlong]
  | chars type length => simp [typeOf, typeAlong]
  | common type =>
    rw [htype] at hread
    obtain ⟨t, rfl, ht⟩ := hread
    obtain ⟨s, hs⟩ := Option.isSome_iff_exists.1 ht
    simp [typeOf, typeAlong, Json.isCompound, Json.text?, hs]
  | enumeration type members =>
    rw [htype] at hread
    obtain ⟨t, rfl⟩ := hread
    rw [typeOf, typeAlong, enumerationOf]
    simp only [bind_eq_ok_iff, pure_eq_ok_iff, lookUp_eq_ok_iff, ColumnType.enumeration.injEq]
    constructor
    · rintro ⟨-, e, ⟨-, he⟩, -⟩ _ _ ⟨-, rfl⟩
      exact enumeration?_isSome_iff.1 (Option.isSome_iff_exists.2 ⟨e, he⟩)
    · intro hthere
      have hsome := enumeration?_isSome_iff.2 (hthere type (.text t) ⟨rfl, rfl⟩)
      obtain ⟨e, he⟩ := Option.isSome_iff_exists.1 hsome
      exact ⟨_, e, ⟨rfl, he⟩, rfl⟩

/-- Where references resolve, the search ends at a type: as the chain leads to the column where it
stands, that column cannot be on the chain. -/
theorem exists_typeAlong (h : schema.Distinguishes) (resolves : schema.Resolves) {chain : List Text}
    {type : ColumnType} {owner column : Name} (ha : schema.IsColumn a)
    (htype : a.column.type = type) (howner : a.table.name = owner)
    (hcolumn : a.column.name = column) (hchain : schema.LeadsTo chain a) :
    ∃ found, schema.typeAlong chain type owner column = .ok found := by
  induction chain, type, owner, column using typeAlong.induct schema generalizing a with
  | case9 chain owner column type target key hseen resolved hresolved ih =>
    have hrefers := (h.targetOf_eq_ok_iff_refers ha htype owner column).1 hresolved
    subst howner hcolumn
    obtain ⟨found, hfound⟩ := ih hrefers.isColumn rfl rfl rfl (hchain.step ha hrefers)
    exact ⟨found, typeAlong_relation_eq_ok_iff.2 ⟨hseen, resolved, hresolved, hfound⟩⟩
  | case8 chain owner column type target key hseen e herror =>
    obtain ⟨t, ht, rfl, c, hc, rfl⟩ := resolves.relations ha htype
    have hrefers : schema.Refers a ⟨t, c⟩ := ⟨⟨ht, hc⟩, type, htype⟩
    have hresolved := (h.targetOf_eq_ok_iff_refers ha htype owner column).2 hrefers
    simp [hresolved] at herror
  | case7 chain owner column type target key hseen =>
    obtain ⟨p, hp, hlink, hpa⟩ := hchain _ hseen
    rw [← howner, ← hcolumn] at hlink
    obtain rfl := h.link_inj hp ha hlink
    exact absurd hpa (resolves.acyclic hp Relation.ReflTransGen.refl)
  | _ =>
    have hlast : ¬ a.column.type.IsRelation := by
      simp [ColumnType.IsRelation, htype]
    rw [← htype, typeAlong_eq_typeOf hlast]
    exact (h.typeOf_isOk_iff ha hlast _ _).2 fun _ _ hmembers => resolves.enumerations ha hmembers

/-- **When all columns have types**: exactly when all references resolve. -/
theorem exists_typeOf_iff_resolves (h : schema.Distinguishes) :
    (∀ a, schema.IsColumn a → ∃ found,
      schema.typeOf a.column.type a.table.name a.column.name = .ok found) ↔ schema.Resolves := by
  constructor
  · intro hall
    refine ⟨fun {a} ha => ?_, fun {a} ha => ?_, fun {a} ha => ?_⟩
    · intro type members htype
      have hlast : ¬ a.column.type.IsRelation := by
        simp [ColumnType.IsRelation, htype]
      exact (h.typeOf_isOk_iff ha hlast _ _).1 (hall a ha) type members htype
    · intro type target key htype
      obtain ⟨found, hfound⟩ := hall a ha
      rw [htype] at hfound
      obtain ⟨b, hb, -⟩ := exists_typeOf_target hfound
      obtain ⟨⟨ht, hc⟩, other, hnames⟩ := (h.targetOf_eq_ok_iff_refers ha htype _ _).1 hb
      rw [htype] at hnames
      injection hnames with _ htname hcname
      exact ⟨b.table, ht, htname.symm, b.column, hc, hcname.symm⟩
    · intro b hab
      obtain ⟨found, hfound⟩ := hall a ha
      exact h.not_cycle_of_typeAlong ha hfound hab
  · intro resolves a ha
    exact h.exists_typeAlong resolves ha rfl rfl rfl (by simp [LeadsTo])

end Distinguishes

end Schema

end SchemaScribe
