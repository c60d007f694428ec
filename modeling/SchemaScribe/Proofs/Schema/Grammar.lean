import Mathlib.Data.List.Forall2
import SchemaScribe.Proofs.Success
import SchemaScribe.Schema.Reader

/-!
# The grammar of items

What the elements of a list of items have to be (`IsItemObject`), and which item an element spells
(`SpellsItem`). An element spells an item exactly when it is of the right shape
(`exists_spellsItem_iff`), and the reader gives that item and no other (`gives_readItem`).

There is one lemma of each sort for each reader. Lists are read alike at all levels, element by
element (`Gives.readAll_eq_ok_iff`).
-/

namespace SchemaScribe.Schema

open Json (member member?)

variable {α β : Type} {place : Place} {members : List (Text × Json)}

/-! ## Well-formed elements -/

/-- The member of an object under a key is a text. -/
def HasText (members : List (Text × Json)) (key : String) : Prop :=
  ∃ t, member members key = .text t

/-- An object is one of the five kinds of types and has what its kind requires. -/
def IsTypeObject (members : List (Text × Json)) : Prop :=
  member members "kind" = .text "common" ∧
      (∃ name, member members "type" = .text name ∧ (SqlType.ofName? name).isSome = true) ∨
    member members "kind" = .text "decimal" ∨
    member members "kind" = .text "chars" ∨
    member members "kind" = .text "enum" ∧ HasText members "enum_name" ∨
    member members "kind" = .text "relation" ∧ HasText members "table_name" ∧
      HasText members "foreign_key"

/-- A value is an object that has a type. -/
def IsAttribute (x : Json) : Prop :=
  ∃ members, x = .object members ∧ ∃ type, member? members "type" = some type

/-- Attributes are not there, or a value that does not count as true, an object, or a list of
objects that each have a type. -/
def IsAttributes : Option Json → Prop
  | none => True
  | some x => x.isTruthy = false ∨ (∃ members, x = .object members) ∨
      ∃ elements, x = .list elements ∧ ∀ a ∈ elements, IsAttribute a

/-- A value is a well-formed column. -/
def IsColumnObject (x : Json) : Prop :=
  ∃ members, x = .object members ∧ HasText members "name" ∧
    (∃ type, member members "type" = .object type ∧ IsTypeObject type) ∧
    IsAttributes (member? members "attributes")

/-- A value is a well-formed item: a table with a list of columns or an enumeration with a list of
texts. -/
def IsItemObject (x : Json) : Prop :=
  ∃ members, x = .object members ∧ HasText members "name" ∧
    (member members "type" = .text "table" ∧
        (∃ columns, member members "columns" = .list columns ∧ ∀ c ∈ columns, IsColumnObject c) ∨
      member members "type" = .text "enum" ∧
        ∃ elements, member members "items" = .list elements ∧ ∀ x ∈ elements, ∃ t, x = .text t)

/-! ## What elements spell -/

/-- The object of a type spells a type. -/
inductive SpellsType (members : List (Text × Json)) : ColumnType → Prop
  | common {name : Text} (hkind : member members "kind" = .text "common")
      (htype : member members "type" = .text name) (known : (SqlType.ofName? name).isSome = true) :
      SpellsType members (.common (.text name))
  | decimal (hkind : member members "kind" = .text "decimal") :
      SpellsType members
        (.decimal (.text "decimal") (member members "precision") (member members "scale"))
  | chars (hkind : member members "kind" = .text "chars") :
      SpellsType members
        (.chars (.text "varchar") ((member? members "length").getD (member members "size")))
  | enumeration {name : Text} (hkind : member members "kind" = .text "enum")
      (hname : member members "enum_name" = .text name) :
      SpellsType members (.enumeration (.text "enum") (.text name))
  | relation {table key : Text} (hkind : member members "kind" = .text "relation")
      (htable : member members "table_name" = .text table)
      (hkey : member members "foreign_key" = .text key) :
      SpellsType members (.relation (.text "relation") (.text table) (.text key))

/-- An object with a type spells an attribute. -/
inductive SpellsAttribute : Json → Attribute → Prop
  | object {members : List (Text × Json)} {type : Json}
      (htype : member? members "type" = some type) :
      SpellsAttribute (.object members) ⟨type, member members "value"⟩

/-- A value spells a list of attributes: none, one for each member, or one for each element. -/
inductive SpellsAttributes : Json → List Attribute → Prop
  | none {x : Json} (hfalse : x.isTruthy = false) : SpellsAttributes x []
  | object (members : List (Text × Json)) :
      SpellsAttributes (.object members) (members.map fun (key, x) => ⟨.text key, x⟩)
  | list {elements : List Json} {attributes : List Attribute}
      (h : List.Forall₂ SpellsAttribute elements attributes) :
      SpellsAttributes (.list elements) attributes

/-- An object spells a column. -/
inductive SpellsColumn : Json → Column → Prop
  | object {members typeMembers : List (Text × Json)} {name : Text} {type : ColumnType}
      {attributes : List Attribute} (hname : member members "name" = .text name)
      (hobject : member members "type" = .object typeMembers) (htype : SpellsType typeMembers type)
      (hattributes : SpellsAttributes (member members "attributes") attributes) :
      SpellsColumn (.object members) ⟨.text name, type, attributes⟩

/-- An object spells an item. -/
inductive SpellsItem : Json → Item → Prop
  | table {members : List (Text × Json)} {name : Text} {elements : List Json}
      {columns : List Column} (hname : member members "name" = .text name)
      (htype : member members "type" = .text "table")
      (hlist : member members "columns" = .list elements)
      (hcolumns : List.Forall₂ SpellsColumn elements columns) :
      SpellsItem (.object members) (.table ⟨.text name, columns⟩)
  | enumeration {members : List (Text × Json)} {name : Text} {elements : List Json}
      (hname : member members "name" = .text name) (htype : member members "type" = .text "enum")
      (hlist : member members "items" = .list elements)
      (htexts : ∀ x ∈ elements, ∃ t, x = .text t) :
      SpellsItem (.object members) (.enumeration ⟨.text name, .list elements⟩)

/-! ## Readers give what is spelled -/

theorem string?_eq_some_iff {x : Json} {s : String} : x.string? = some s ↔ x = .text s := by
  cases x with
  | text t => simp [Json.string?, Json.text?, Text.toString?_eq_some_iff]
  | _ => simp [Json.string?, Json.text?]

theorem textMember_eq_ok_iff {key : String} {t : Text} :
    textMember place members key = .ok t ↔ member members key = .text t := by
  unfold textMember
  cases member members key <;> simp

theorem listMember_eq_ok_iff {key : String} {xs : List Json} :
    listMember place members key = .ok xs ↔ member members key = .list xs := by
  unfold listMember
  cases member members key <;> simp

theorem objectMember_eq_ok_iff {key : String} {ms : List (Text × Json)} :
    objectMember place members key = .ok ms ↔ member members key = .object ms := by
  unfold objectMember
  cases member members key <;> simp

/-- A reader gives what an element spells, wherever the element stands. -/
def Gives (read : Place → Json → Except SchemaError α) (Spells : Json → α → Prop) : Prop :=
  ∀ place x a, read place x = .ok a ↔ Spells x a

/-- The elements of a list are read one by one. -/
theorem Gives.readAll_eq_ok_iff {read : Place → Json → Except SchemaError α}
    {Spells : Json → α → Prop} (hread : Gives read Spells) {index : Nat} {xs : List Json}
    {as : List α} : readAll read place index xs = .ok as ↔ List.Forall₂ Spells xs as := by
  induction xs generalizing index as with
  | nil =>
    rw [readAll, List.forall₂_nil_left_iff]
    exact ⟨fun h => (Except.ok.inj h).symm, fun h => h ▸ rfl⟩
  | cons x rest ih =>
    rw [readAll, List.forall₂_cons_left_iff]
    constructor
    · intro h
      obtain ⟨a, ha, h⟩ := bind_eq_ok_iff.1 h
      obtain ⟨tail, htail, h⟩ := bind_eq_ok_iff.1 h
      exact ⟨a, tail, (hread _ x a).1 ha, ih.1 htail, (pure_eq_ok_iff.1 h).symm⟩
    · rintro ⟨a, tail, ha, htail, rfl⟩
      exact bind_eq_ok_iff.2 ⟨a, (hread _ x a).2 ha, bind_eq_ok_iff.2 ⟨tail, ih.2 htail, rfl⟩⟩

theorem gives_readAttribute : Gives readAttribute SpellsAttribute := by
  intro place x a
  constructor
  · intro h
    unfold readAttribute at h
    split at h
    · split at h
      · next htype =>
        obtain rfl := Except.ok.inj h
        exact .object htype
      · cases h
    · cases h
  · rintro ⟨htype⟩
    simp [readAttribute, htype]

theorem readAttributes_eq_ok_iff {x : Json} {attributes : List Attribute} :
    readAttributes place x = .ok attributes ↔ SpellsAttributes x attributes := by
  constructor
  · intro h
    unfold readAttributes at h
    split at h
    · next hfalse =>
      obtain rfl := Except.ok.inj h
      exact .none (by simpa using hfalse)
    · split at h
      · obtain rfl := Except.ok.inj h
        exact .object _
      · exact .list (gives_readAttribute.readAll_eq_ok_iff.1 h)
      · cases h
  · intro h
    cases h with
    | none hfalse => simp [readAttributes, hfalse]
    | object members => cases members <;> simp [readAttributes, Json.isTruthy]
    | @list elements _ hall =>
      have hread : readAll readAttribute place 0 elements = .ok attributes :=
        gives_readAttribute.readAll_eq_ok_iff.2 hall
      cases hall <;> simp_all [readAttributes, Json.isTruthy]

theorem readType_eq_ok_iff {type : ColumnType} :
    readType place members = .ok type ↔ SpellsType members type := by
  constructor
  · intro h
    unfold readType at h
    dsimp only at h
    split at h
    · next hkind =>
      split at h
      · next hname =>
        obtain rfl := Except.ok.inj h
        obtain ⟨t, ht, hknown⟩ : ∃ t, member members "type" = .text t ∧
            (SqlType.ofName? t).isSome = true := by
          cases hmember : member members "type" <;> simp_all [Json.text?]
        rw [ht]
        exact .common (string?_eq_some_iff.1 hkind) ht hknown
      · cases h
    · next hkind =>
      obtain rfl := Except.ok.inj h
      exact .decimal (string?_eq_some_iff.1 hkind)
    · next hkind =>
      obtain rfl := Except.ok.inj h
      exact .chars (string?_eq_some_iff.1 hkind)
    · next hkind =>
      obtain ⟨name, hname, h⟩ := bind_eq_ok_iff.1 h
      obtain rfl := pure_eq_ok_iff.1 h
      exact .enumeration (string?_eq_some_iff.1 hkind) (textMember_eq_ok_iff.1 hname)
    · next hkind =>
      obtain ⟨table, htable, h⟩ := bind_eq_ok_iff.1 h
      obtain ⟨key, hkey, h⟩ := bind_eq_ok_iff.1 h
      obtain rfl := pure_eq_ok_iff.1 h
      exact .relation (string?_eq_some_iff.1 hkind) (textMember_eq_ok_iff.1 htable)
        (textMember_eq_ok_iff.1 hkey)
    · cases h
  · intro h
    cases h with
    | common hkind htype known =>
      simp [readType, string?_eq_some_iff.2 hkind, htype, Json.text?, known]
    | decimal hkind => simp [readType, string?_eq_some_iff.2 hkind]
    | chars hkind => simp [readType, string?_eq_some_iff.2 hkind]
    | enumeration hkind hname =>
      simp [readType, string?_eq_some_iff.2 hkind, textMember, hname, bind, Except.bind, pure,
        Except.pure]
    | relation hkind htable hkey =>
      simp [readType, string?_eq_some_iff.2 hkind, textMember, htable, hkey, bind, Except.bind,
        pure, Except.pure]

theorem gives_readColumn : Gives readColumn SpellsColumn := by
  intro place x column
  constructor
  · intro h
    unfold readColumn at h
    split at h
    · obtain ⟨name, hname, h⟩ := bind_eq_ok_iff.1 h
      obtain ⟨typeMembers, hobject, h⟩ := bind_eq_ok_iff.1 h
      obtain ⟨type, htype, h⟩ := bind_eq_ok_iff.1 h
      obtain ⟨attributes, hattributes, h⟩ := bind_eq_ok_iff.1 h
      obtain rfl := pure_eq_ok_iff.1 h
      exact .object (textMember_eq_ok_iff.1 hname) (objectMember_eq_ok_iff.1 hobject)
        (readType_eq_ok_iff.1 htype) (readAttributes_eq_ok_iff.1 hattributes)
    · cases h
  · rintro ⟨hname, hobject, htype, hattributes⟩
    exact bind_eq_ok_iff.2 ⟨_, textMember_eq_ok_iff.2 hname,
      bind_eq_ok_iff.2 ⟨_, objectMember_eq_ok_iff.2 hobject,
        bind_eq_ok_iff.2 ⟨_, readType_eq_ok_iff.2 htype,
          bind_eq_ok_iff.2 ⟨_, readAttributes_eq_ok_iff.2 hattributes, rfl⟩⟩⟩⟩

theorem all_text?_iff {elements : List Json} :
    (elements.all fun x => x.text?.isSome) = true ↔ ∀ x ∈ elements, ∃ t, x = .text t := by
  rw [List.all_eq_true]
  refine forall₂_congr fun x _ => ?_
  cases x <;> simp [Json.text?]

/-- **An item is read as what it spells**, wherever it stands. -/
theorem gives_readItem : Gives readItem SpellsItem := by
  intro place x item
  constructor
  · intro h
    unfold readItem at h
    split at h
    · obtain ⟨name, hname, h⟩ := bind_eq_ok_iff.1 h
      dsimp only at h
      split at h
      · next htype =>
        obtain ⟨elements, hlist, h⟩ := bind_eq_ok_iff.1 h
        obtain ⟨columns, hcolumns, h⟩ := bind_eq_ok_iff.1 h
        obtain rfl := pure_eq_ok_iff.1 h
        exact .table (textMember_eq_ok_iff.1 hname) (string?_eq_some_iff.1 htype)
          (listMember_eq_ok_iff.1 hlist)
          (gives_readColumn.readAll_eq_ok_iff.1 hcolumns)
      · next htype =>
        obtain ⟨elements, hlist, h⟩ := bind_eq_ok_iff.1 h
        split at h
        · next htexts =>
          obtain rfl := pure_eq_ok_iff.1 h
          exact .enumeration (textMember_eq_ok_iff.1 hname) (string?_eq_some_iff.1 htype)
            (listMember_eq_ok_iff.1 hlist) (all_text?_iff.1 htexts)
        · cases h
      · cases h
    · cases h
  · intro h
    cases h with
    | table hname htype hlist hcolumns =>
      refine bind_eq_ok_iff.2 ⟨_, textMember_eq_ok_iff.2 hname, ?_⟩
      dsimp only
      rw [string?_eq_some_iff.2 htype]
      exact bind_eq_ok_iff.2 ⟨_, listMember_eq_ok_iff.2 hlist, bind_eq_ok_iff.2
        ⟨_, gives_readColumn.readAll_eq_ok_iff.2 hcolumns, rfl⟩⟩
    | enumeration hname htype hlist htexts =>
      refine bind_eq_ok_iff.2 ⟨_, textMember_eq_ok_iff.2 hname, ?_⟩
      dsimp only
      rw [string?_eq_some_iff.2 htype]
      refine bind_eq_ok_iff.2 ⟨_, listMember_eq_ok_iff.2 hlist, ?_⟩
      rw [if_pos (all_text?_iff.2 htexts)]
      rfl

/-! ## What is well formed spells something -/

/-- Each element of a list spells something exactly when the list does. -/
theorem exists_forall₂_iff {R : α → β → Prop} {as : List α} :
    (∃ bs, List.Forall₂ R as bs) ↔ ∀ a ∈ as, ∃ b, R a b := by
  induction as with
  | nil => exact iff_of_true ⟨[], .nil⟩ (by simp)
  | cons a rest ih =>
    rw [List.forall_mem_cons, ← ih]
    constructor
    · rintro ⟨bs, h⟩
      cases h with
      | cons hb hrest => exact ⟨⟨_, hb⟩, _, hrest⟩
    · rintro ⟨⟨b, hb⟩, bs, hrest⟩
      exact ⟨b :: bs, .cons hb hrest⟩

/-- What a list spells is spelled by its elements. -/
theorem exists_of_mem_forall₂ {R : α → β → Prop} {as : List α} {bs : List β}
    (h : List.Forall₂ R as bs) {b : β} (hb : b ∈ bs) : ∃ a, R a b :=
  exists_forall₂_iff.1 ⟨as, h.flip⟩ b hb

theorem exists_spellsType_iff : (∃ type, SpellsType members type) ↔ IsTypeObject members := by
  constructor
  · rintro ⟨type, h⟩
    cases h with
    | common hkind htype known => exact .inl ⟨hkind, _, htype, known⟩
    | decimal hkind => exact .inr (.inl hkind)
    | chars hkind => exact .inr (.inr (.inl hkind))
    | enumeration hkind hname => exact .inr (.inr (.inr (.inl ⟨hkind, _, hname⟩)))
    | relation hkind htable hkey => exact .inr (.inr (.inr (.inr ⟨hkind, ⟨_, htable⟩, _, hkey⟩)))
  · rintro (⟨hkind, name, htype, known⟩ | hkind | hkind | ⟨hkind, name, hname⟩ |
      ⟨hkind, ⟨table, htable⟩, key, hkey⟩)
    · exact ⟨_, .common hkind htype known⟩
    · exact ⟨_, .decimal hkind⟩
    · exact ⟨_, .chars hkind⟩
    · exact ⟨_, .enumeration hkind hname⟩
    · exact ⟨_, .relation hkind htable hkey⟩

theorem exists_spellsAttribute_iff {x : Json} : (∃ a, SpellsAttribute x a) ↔ IsAttribute x := by
  constructor
  · rintro ⟨a, ⟨htype⟩⟩
    exact ⟨_, rfl, _, htype⟩
  · rintro ⟨ms, rfl, type, htype⟩
    exact ⟨_, .object htype⟩

/-- Attributes that are not there are read as `null`, which does not count as true. -/
theorem exists_spellsAttributes_iff {x : Option Json} :
    (∃ attributes, SpellsAttributes (x.getD .null) attributes) ↔ IsAttributes x := by
  cases x with
  | none => exact iff_of_true ⟨[], .none rfl⟩ trivial
  | some x =>
    constructor
    · rintro ⟨attributes, h⟩
      cases h with
      | none hfalse => exact .inl hfalse
      | object ms => exact .inr (.inl ⟨ms, rfl⟩)
      | list hall =>
        exact .inr (.inr ⟨_, rfl, fun a ha =>
          exists_spellsAttribute_iff.1 (exists_forall₂_iff.1 ⟨_, hall⟩ a ha)⟩)
    · rintro (hfalse | ⟨ms, rfl⟩ | ⟨elements, rfl, hall⟩)
      · exact ⟨[], .none hfalse⟩
      · exact ⟨_, .object ms⟩
      · obtain ⟨attributes, h⟩ := exists_forall₂_iff.2 fun a ha =>
          exists_spellsAttribute_iff.2 (hall a ha)
        exact ⟨attributes, .list h⟩

theorem exists_spellsColumn_iff {x : Json} :
    (∃ column, SpellsColumn x column) ↔ IsColumnObject x := by
  constructor
  · rintro ⟨column, ⟨hname, hobject, htype, hattributes⟩⟩
    exact ⟨_, rfl, ⟨_, hname⟩, ⟨_, hobject, exists_spellsType_iff.1 ⟨_, htype⟩⟩,
      exists_spellsAttributes_iff.1 ⟨_, hattributes⟩⟩
  · rintro ⟨ms, rfl, ⟨name, hname⟩, ⟨object, hobject, htype⟩, hattributes⟩
    obtain ⟨type, htype⟩ := exists_spellsType_iff.2 htype
    obtain ⟨attributes, hattributes⟩ := exists_spellsAttributes_iff.2 hattributes
    exact ⟨_, .object hname hobject htype hattributes⟩

/-- **A value spells an item exactly when it is well formed.** -/
theorem exists_spellsItem_iff {x : Json} : (∃ item, SpellsItem x item) ↔ IsItemObject x := by
  constructor
  · rintro ⟨item, h⟩
    cases h with
    | table hname htype hlist hcolumns =>
      exact ⟨_, rfl, ⟨_, hname⟩, .inl ⟨htype, _, hlist, fun c hc =>
        exists_spellsColumn_iff.1 (exists_forall₂_iff.1 ⟨_, hcolumns⟩ c hc)⟩⟩
    | enumeration hname htype hlist htexts =>
      exact ⟨_, rfl, ⟨_, hname⟩, .inr ⟨htype, _, hlist, htexts⟩⟩
  · rintro ⟨ms, rfl, ⟨name, hname⟩, ⟨htype, elements, hlist, hall⟩ | ⟨htype, elements, hlist, hall⟩⟩
    · obtain ⟨columns, hcolumns⟩ := exists_forall₂_iff.2 fun c hc =>
        exists_spellsColumn_iff.2 (hall c hc)
      exact ⟨_, .table hname htype hlist hcolumns⟩
    · exact ⟨_, .enumeration hname htype hlist hall⟩

end SchemaScribe.Schema
