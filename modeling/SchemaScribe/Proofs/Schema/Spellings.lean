import Mathlib.Logic.Relation
import SchemaScribe.Proofs.Schema.RoundTrip

/-!
# Spellings of a document

One schema can be spelled by several documents. Its items may stand in a list, under `items`, or
apart as tables and enumerations; a column may have its attributes in an object or in a list, or
none where they count as false; and the length of a text may go by the name `size`. Two documents
that can be turned into each other by steps of this sort (`Respells`) are read alike: as the same
items, or with the same error at the same place (`ofJson_eq_of_respells`).
-/

namespace SchemaScribe.Schema

open Json (member member?)

variable {members flags type : List (Text × Json)} {place : Place}

/-! ## Steps from one spelling to another -/

/-- The members of an object as a list of attributes. -/
def listedFlags (flags : List (Text × Json)) : Json :=
  .list (flags.map fun (key, x) => Attribute.toJson ⟨.text key, x⟩)

/-- The object of a type with its `size` called `length`. -/
def withLength (type : List (Text × Json)) : List (Text × Json) :=
  type.map fun (key, x) => (if key = "size" then "length" else key, x)

/-- A column stays as it is, or is spelled in another way. -/
inductive RespellsColumn : Json → Json → Prop
  | same (x : Json) : RespellsColumn x x
  /-- An object of attributes becomes a list of them. -/
  | listed {members flags : List (Text × Json)}
      (h : member? members "attributes" = some (.object flags)) :
      RespellsColumn (.object members)
        (.object (Entries.put members "attributes" (listedFlags flags)))
  /-- Attributes that do not count as true are left out. -/
  | omitted {members : List (Text × Json)} {x : Json}
      (h : member? members "attributes" = some x) (hfalse : x.isTruthy = false) :
      RespellsColumn (.object members) (.object (Entries.erase members "attributes"))
  /-- The size of a text without a length becomes its length. -/
  | length {members type : List (Text × Json)} (h : member? members "type" = some (.object type))
      (hkind : member type "kind" = .text "chars") (hlength : member? type "length" = none) :
      RespellsColumn (.object members)
        (.object (Entries.put members "type" (.object (withLength type))))

/-- An item stays as it is, or has columns that are spelled in another way. -/
inductive RespellsItem : Json → Json → Prop
  | same (x : Json) : RespellsItem x x
  | columns {members : List (Text × Json)} {columns others : List Json}
      (h : member? members "columns" = some (.list columns))
      (hcolumns : List.Forall₂ RespellsColumn columns others) :
      RespellsItem (.object members) (.object (Entries.put members "columns" (.list others)))

/-- The lists of tables and of enumerations are taken apart only where there are no items, and one
of them is there. -/
def IsApart (members : List (Text × Json)) : Prop :=
  member? members "items" = none ∧
    (member? members "list_table" ≠ none ∨ member? members "list_enum" ≠ none)

/-- The list of tables and the list of enumerations stand apart; one that is empty may be left out,
but not both. -/
structure HasLists (members : List (Text × Json)) (tables enumerations : List Json) : Prop where
  apart : IsApart members
  tables : (member? members "list_table").getD (.list []) = .list tables
  enumerations : (member? members "list_enum").getD (.list []) = .list enumerations

/-- A document is spelled in another way, wherever it has items. -/
inductive Respells : Json → Json → Prop
  /-- Tables and enumerations are joined in one list. -/
  | joined {members : List (Text × Json)} {tables enumerations : List Json}
      (h : HasLists members tables enumerations) :
      Respells (.object members) (.list (tables ++ enumerations))
  /-- The items stand by themselves. -/
  | items {members : List (Text × Json)} {elements : List Json}
      (h : member? members "items" = some (.list elements)) :
      Respells (.object members) (.list elements)
  /-- Items in a list are spelled in another way. -/
  | elements {elements others : List Json} (h : List.Forall₂ RespellsItem elements others) :
      Respells (.list elements) (.list others)
  /-- Items in a list under a key are spelled in another way. -/
  | member {members : List (Text × Json)} {key : Text} {elements others : List Json}
      (h : member? members key = some (.list elements))
      (helements : List.Forall₂ RespellsItem elements others) :
      Respells (.object members) (.object (Entries.put members key (.list others)))

/-! ## Columns -/

theorem member_put_self (members : List (Text × Json)) (key : Text) (x : Json) :
    member (Entries.put members key x) key = x := by
  rw [member, member?, Entries.get?_put_self]
  rfl

theorem member_put_of_ne (members : List (Text × Json)) {key other : Text} (x : Json)
    (h : other ≠ key) : member (Entries.put members key x) other = member members other := by
  rw [member, member?, Entries.get?_put_of_ne _ _ h]
  rfl

theorem member_erase_self (members : List (Text × Json)) (key : Text) :
    member (Entries.erase members key) key = .null := by
  rw [member, member?, Entries.get?_erase_self]
  rfl

theorem member_erase_of_ne (members : List (Text × Json)) {key other : Text} (h : other ≠ key) :
    member (Entries.erase members key) other = member members other := by
  rw [member, member?, Entries.get?_erase_of_ne _ h]
  rfl

theorem member_of_member? {key : Text} {x : Json} (h : member? members key = some x) :
    member members key = x := by
  rw [member, h]
  rfl

theorem readAttributes_listedFlags :
    readAttributes place (listedFlags flags) = readAttributes place (.object flags) := by
  have hlisted : SpellsAttributes (listedFlags flags)
      (flags.map fun (key, x) => ⟨.text key, x⟩) := by
    refine .list ?_
    rw [List.forall₂_map_left_iff, List.forall₂_map_right_iff]
    exact List.forall₂_same.2 fun _ _ => .object rfl
  rw [readAttributes_eq_ok_iff.2 hlisted, readAttributes_eq_ok_iff.2 (.object flags)]

theorem readAttributes_of_not_isTruthy {x : Json} (h : x.isTruthy = false) :
    readAttributes place x = .ok [] :=
  readAttributes_eq_ok_iff.2 (.none h)

/-- The renamed member is found under its new name only, and all others under their own. -/
theorem member?_withLength (hlength : member? type "length" = none) (key : Text) :
    member? (withLength type) key =
      if key = "length" then member? type "size"
      else if key = "size" then none else member? type key := by
  have hne : Text.ofString "size" ≠ Text.ofString "length" := by decide
  induction type with
  | nil => simp [withLength, member?, Entries.get?]
  | cons entry rest ih =>
    obtain ⟨k, x⟩ := entry
    simp only [member?, Entries.get?, withLength, List.map_cons] at hlength ih ⊢
    split at hlength
    · cases hlength
    · next hk =>
      rw [ih hlength]
      by_cases hsize : k = "size"
      · subst hsize
        grind
      · grind

/-- The type of a text is the same whichever name its length goes by. -/
theorem readType_withLength (hkind : member type "kind" = .text "chars")
    (hlength : member? type "length" = none) (place : Place) :
    readType place (withLength type) = readType place type := by
  have hkind' : member (withLength type) "kind" = .text "chars" := by
    rw [member, member?_withLength hlength, if_neg (by decide), if_neg (by decide)]
    exact hkind
  have hvalue : (member? (withLength type) "length").getD (member (withLength type) "size") =
      (member? type "length").getD (member type "size") := by
    rw [member, member, member?_withLength hlength, member?_withLength hlength, if_pos rfl,
      if_neg (by decide), if_pos rfl, hlength]
    rfl
  rw [readType_eq_ok_iff.2 (.chars hkind), readType_eq_ok_iff.2 (.chars hkind'), hvalue]

/-- Two values are read alike, wherever they stand. -/
def ReadAlike {α : Type} (read : Place → Json → Except SchemaError α) (x y : Json) : Prop :=
  ∀ place, read place x = read place y

theorem readAll_congr {α : Type} {read : Place → Json → Except SchemaError α} {xs ys : List Json}
    (h : List.Forall₂ (ReadAlike read) xs ys) (place : Place) (index : Nat) :
    readAll read place index xs = readAll read place index ys := by
  induction h generalizing index with
  | nil => rfl
  | cons hx _ ih => rw [readAll, readAll, hx, ih]

theorem RespellsColumn.readAlike {x y : Json} (h : RespellsColumn x y) :
    ReadAlike readColumn x y := by
  intro place
  have hname : Text.ofString "name" ≠ "attributes" := by decide
  have htype : Text.ofString "type" ≠ "attributes" := by decide
  cases h with
  | same x => rfl
  | listed h =>
    simp only [readColumn, textMember, objectMember, member_put_self, member_of_member? h,
      member_put_of_ne _ _ hname, member_put_of_ne _ _ htype, readAttributes_listedFlags]
  | omitted h hfalse =>
    have hnull : Json.isTruthy .null = false := rfl
    simp only [readColumn, textMember, objectMember, member_erase_self, member_of_member? h,
      member_erase_of_ne _ hname, member_erase_of_ne _ htype,
      readAttributes_of_not_isTruthy hfalse, readAttributes_of_not_isTruthy hnull]
  | @length members type h hkind hlength =>
    have hname : Text.ofString "name" ≠ "type" := by decide
    have hold : ∀ place, objectMember place members "type" = .ok type := fun place =>
      objectMember_eq_ok_iff.2 (member_of_member? h)
    have hnew : ∀ place, objectMember place
        (Entries.put members "type" (.object (withLength type))) "type" = .ok (withLength type) :=
      fun place => objectMember_eq_ok_iff.2 (member_put_self ..)
    simp only [readColumn, textMember, hold, hnew, bind, Except.bind,
      member_put_of_ne _ _ hname, member_put_of_ne _ _ htype.symm,
      readType_withLength hkind hlength]

/-! ## Items -/

theorem RespellsItem.readAlike {x y : Json} (h : RespellsItem x y) : ReadAlike readItem x y := by
  intro place
  cases h with
  | same x => rfl
  | @columns members columns others h hcolumns =>
    have hname : Text.ofString "name" ≠ "columns" := by decide
    have htype : Text.ofString "type" ≠ "columns" := by decide
    have hitems : Text.ofString "items" ≠ "columns" := by decide
    have hold : ∀ place, listMember place members "columns" = .ok columns := fun place =>
      listMember_eq_ok_iff.2 (member_of_member? h)
    have hnew : ∀ place, listMember place
        (Entries.put members "columns" (.list others)) "columns" = .ok others :=
      fun place => listMember_eq_ok_iff.2 (member_put_self ..)
    have helements : ∀ place, listMember place
        (Entries.put members "columns" (.list others)) "items" = listMember place members "items" :=
      fun place => by rw [listMember, listMember, member_put_of_ne _ _ hitems]
    simp only [readItem, textMember, hold, hnew, helements, bind, Except.bind,
      member_put_of_ne _ _ hname, member_put_of_ne _ _ htype,
      readAll_congr (hcolumns.imp fun _ _ => RespellsColumn.readAlike)]

/-! ## Documents -/

/-- What stands under a key of two objects: the same, or lists of items that are read alike. -/
def ListedAlike (x y : Option Json) : Prop :=
  x = y ∨ ∃ xs ys, x = some (.list xs) ∧ y = some (.list ys) ∧
    List.Forall₂ (ReadAlike readItem) xs ys

theorem listedAlike_put {key : Text} {xs ys : List Json} (h : member? members key = some (.list xs))
    (hall : List.Forall₂ (ReadAlike readItem) xs ys) (other : Text) :
    ListedAlike (member? members other)
      (member? (Entries.put members key (.list ys)) other) := by
  by_cases hother : other = key
  · subst hother
    exact .inr ⟨xs, ys, h, Entries.get?_put_self .., hall⟩
  · exact .inl (Entries.get?_put_of_ne _ _ hother).symm

theorem forall₂_readAlike_refl (xs : List Json) : List.Forall₂ (ReadAlike readItem) xs xs :=
  List.forall₂_same.2 fun _ _ _ => rfl

theorem ListedAlike.eq_none_iff {x y : Option Json} (h : ListedAlike x y) :
    x = none ↔ y = none := by
  rcases h with rfl | ⟨xs, ys, rfl, rfl, -⟩
  · exact Iff.rfl
  · simp

theorem ListedAlike.elementsOf {x y : Option Json} (h : ListedAlike x y) :
    Both (List.Forall₂ (ReadAlike readItem)) (elementsOf (x.getD (.list [])))
      (elementsOf (y.getD (.list []))) := by
  rcases h with rfl | ⟨xs, ys, rfl, rfl, hall⟩
  · cases Schema.elementsOf (x.getD (.list [])) with
    | error e => exact .error e
    | ok elements => exact .ok (forall₂_readAlike_refl elements)
  · exact .ok hall

theorem IsApart.itemElements_eq (h : IsApart members) :
    itemElements (.object members) = (do
      let tables ← elementsOf ((member? members "list_table").getD (.list []))
      let enumerations ← elementsOf ((member? members "list_enum").getD (.list []))
      return tables ++ enumerations) := by
  obtain ⟨hitems, hthere⟩ := h
  unfold itemElements
  dsimp only
  rw [hitems]
  split
  · next h => cases h
  · next h => cases h
  · next htables henumerations => simp_all
  · rfl

theorem itemElements_of_not_list {x : Json} (h : member? members "items" = some x)
    (hx : ∀ elements, x ≠ .list elements) :
    itemElements (.object members) = .error .itemsNotList := by
  unfold itemElements
  dsimp only
  rw [h]
  cases x with
  | list elements => exact absurd rfl (hx elements)
  | _ => rfl

/-- An object without items, tables and enumerations is no document. -/
theorem itemElements_of_not_isApart (hitems : member? members "items" = none)
    (h : ¬ IsApart members) : itemElements (.object members) = .error .documentShape := by
  have hneither := not_or.1 fun hthere => h ⟨hitems, hthere⟩
  unfold itemElements
  dsimp only
  rw [hitems, not_not.1 hneither.1, not_not.1 hneither.2]

/-- Two objects that are alike under every key have elements that are read alike, or the same
fault. -/
theorem both_itemElements {others : List (Text × Json)}
    (h : ∀ key, ListedAlike (member? members key) (member? others key)) :
    Both (List.Forall₂ (ReadAlike readItem)) (itemElements (.object members))
      (itemElements (.object others)) := by
  have hnone : ∀ key, member? members key = none ↔ member? others key = none := fun key =>
    (h key).eq_none_iff
  have hapart : IsApart members ↔ IsApart others := by
    simp only [IsApart, ne_eq, hnone]
  -- The items decide, where there are any; the two lists count only where there are none.
  rcases h "items" with hsame | ⟨xs, ys, hxs, hys, hall⟩
  · cases hitems : member? members "items" with
    | some x =>
      by_cases hx : ∀ elements, x ≠ .list elements
      · rw [itemElements_of_not_list hitems hx, itemElements_of_not_list (hsame ▸ hitems) hx]
        exact .error _
      · obtain ⟨elements, rfl⟩ := not_forall_not.1 hx
        rw [itemElements_of_list hitems, itemElements_of_list (hsame ▸ hitems)]
        exact .ok (forall₂_readAlike_refl elements)
    | none =>
      by_cases hlists : IsApart members
      · rw [hlists.itemElements_eq, (hapart.1 hlists).itemElements_eq]
        refine (h "list_table").elementsOf.bind fun _ _ htables => ?_
        refine (h "list_enum").elementsOf.bind fun _ _ henumerations => ?_
        exact .ok (List.rel_append htables henumerations)
      · rw [itemElements_of_not_isApart hitems hlists,
          itemElements_of_not_isApart ((hnone _).1 hitems) (mt hapart.2 hlists)]
        exact .error _
  · rw [itemElements_of_list hxs, itemElements_of_list hys]
    exact .ok hall

theorem ofJson_eq_of_both {document other : Json}
    (h : Both (List.Forall₂ (ReadAlike readItem)) (itemElements document) (itemElements other)) :
    ofJson document = ofJson other := by
  rcases both_iff.1 h with ⟨e, he, he'⟩ | ⟨elements, others, ho, ho', hall⟩
  · rw [ofJson, ofJson, he, he']
  · rw [ofJson, ofJson, ho, ho']
    exact readAll_congr hall [] 0

/-- **One step** to another spelling changes nothing. -/
theorem Respells.ofJson_eq {document other : Json} (h : Respells document other) :
    ofJson document = ofJson other := by
  cases h with
  | joined h =>
    rw [ofJson, h.apart.itemElements_eq, h.tables, h.enumerations]
    rfl
  | items h =>
    rw [ofJson, itemElements_of_list h]
    rfl
  | elements h => exact ofJson_eq_of_both (.ok (h.imp fun _ _ => RespellsItem.readAlike))
  | member h helements =>
    exact ofJson_eq_of_both (both_itemElements
      (listedAlike_put h (helements.imp fun _ _ => RespellsItem.readAlike)))

/-- **Documents that spell the same schema are read alike.** A document that can be turned into
another by steps from one spelling to another, forth or back, and any number of them at any number
of places, gives the same items, or the same error, as the other. -/
theorem ofJson_eq_of_respells {document other : Json}
    (h : Relation.EqvGen Respells document other) : ofJson document = ofJson other := by
  induction h with
  | rel document other h => exact h.ofJson_eq
  | refl document => rfl
  | symm document other _ ih => exact ih.symm
  | trans document middle other _ _ ihfirst ihsecond => exact ihfirst.trans ihsecond

/-- A column of a type, with further members. -/
def shopColumn (name : Text) (type more : List (Text × Json)) : Json :=
  .object (("name", .text name) :: ("type", .object type) :: more)

/-- Columns with a size, with an object of attributes, and with attributes that count as false. -/
def shopColumns : List Json :=
  [shopColumn "title" [("kind", .text "chars"), ("size", .int 80)] [],
    shopColumn "price" [("kind", .text "decimal")]
      [("attributes", .object [("null", .bool false)])],
    shopColumn "id" [("kind", .text "common"), ("type", .text "int")] [("attributes", .text "")]]

/-- The same columns, with a length, with a list of attributes, and with none. -/
def shopColumnsRespelled : List Json :=
  [shopColumn "title" [("kind", .text "chars"), ("length", .int 80)] [],
    shopColumn "price" [("kind", .text "decimal")]
      [("attributes", .list [.object [("type", .text "null"), ("value", .bool false)]])],
    shopColumn "id" [("kind", .text "common"), ("type", .text "int")] []]

/-- The only table of a shop. -/
def shopTable (columns : List Json) : Json :=
  .object [("type", .text "table"), ("name", .text "Product"), ("columns", .list columns)]

/-- Its only enumeration. -/
def shopSizes : Json :=
  .object [("type", .text "enum"), ("name", .text "Size"), ("items", .list [.text "S", .text "M"])]

/-- A document with tables and enumerations apart. -/
def shop : Json :=
  .object [("list_enum", .list [shopSizes]), ("list_table", .list [shopTable shopColumns])]

/-- A document with its items in one list. -/
def shopRespelled : Json :=
  .object [("items", .list [shopTable shopColumnsRespelled, shopSizes])]

/-- One document is turned into the other when the tables and the enumerations are joined, the
columns are spelled in the other way, and the list is put under its key. -/
theorem ofJson_eq_of_respells_shop :
    Relation.EqvGen Respells shop shopRespelled ∧ ofJson shop = ofJson shopRespelled ∧
      ofJson shopRespelled = .ok
        [.table ⟨.text "Product",
          [⟨.text "title", .chars (.text "varchar") (.int 80), []⟩,
            ⟨.text "price", .decimal (.text "decimal") .null .null, [⟨.text "null", .bool false⟩]⟩,
            ⟨.text "id", .common (.text "int"), []⟩]⟩,
          .enumeration ⟨.text "Size", .list [.text "S", .text "M"]⟩] := by
  have hjoined : Respells shop (.list ([shopTable shopColumns] ++ [shopSizes])) :=
    .joined ⟨⟨by rfl, .inl (by decide)⟩, by rfl, by rfl⟩
  have hsize : member? [("kind", .text "chars"), ("size", .int 80)] "length" = none := rfl
  have hnull : member? [("name", .text "price"), ("type", .object [("kind", .text "decimal")]),
      ("attributes", .object [("null", .bool false)])] "attributes" =
        some (.object [("null", .bool false)]) := rfl
  have hcolumns : List.Forall₂ RespellsColumn shopColumns shopColumnsRespelled := by
    refine .cons ?_ (.cons ?_ (.cons ?_ .nil))
    · exact .length rfl rfl hsize
    · exact .listed hnull
    · exact .omitted rfl rfl
  have hrespelled : Respells (.list [shopTable shopColumns, shopSizes])
      (.list [shopTable shopColumnsRespelled, shopSizes]) :=
    .elements (.cons (.columns rfl hcolumns) (.cons (.same _) .nil))
  have hitems : Respells shopRespelled (.list [shopTable shopColumnsRespelled, shopSizes]) :=
    .items rfl
  have hshop : Relation.EqvGen Respells shop shopRespelled :=
    .trans _ _ _ (.rel _ _ hjoined)
      (.trans _ _ _ (.rel _ _ hrespelled) (.symm _ _ (.rel _ _ hitems)))
  exact ⟨hshop, ofJson_eq_of_respells hshop, by decide +kernel⟩

end SchemaScribe.Schema
