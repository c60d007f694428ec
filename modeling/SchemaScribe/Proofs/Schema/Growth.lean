import Mathlib.Data.List.Basic
import SchemaScribe.Proofs.Model.Chain
import SchemaScribe.Proofs.Schema.Items
import SchemaScribe.Workspace

/-!
# Types in a schema that grows

The type of a column does not change while the schema grows, unless there was none for want of an
item or a column (`typeOf_growAll`). A schema grows by items behind its last and by columns behind
the last of a table, so that the first item of a name stays the first, and so does the first column
of a name in its table.

Of two schemas `GrowsTo` says no more than that: what a name stands for in the one, it stands for
in the other, be it with further columns. It holds of both views that a workspace has of its items,
the index that was taken before the growth and the one that is taken anew (`Covers`).
-/

namespace SchemaScribe

/-- The later table is the earlier one with further columns behind its own. -/
structure Table.GrowsTo (a b : Table) : Prop where
  name : b.name = a.name
  columns : a.columns <+: b.columns

/-- The later item is the earlier one, with further columns if it is a table. -/
inductive Item.GrowsTo : Item → Item → Prop
  | table {a b : Table} (h : a.GrowsTo b) : Item.GrowsTo (.table a) (.table b)
  | same (item : Item) : Item.GrowsTo item item

/-- Whether the error is that an item or a column is not there. -/
def ReferenceError.isMissing : ReferenceError → Bool
  | .missing .. | .noKey .. => true
  | .circular _ | .unsupported .. | .notAName _ => false

theorem Table.GrowsTo.refl (a : Table) : a.GrowsTo a := ⟨rfl, List.prefix_refl _⟩

theorem Table.GrowsTo.trans {a b c : Table} (h : a.GrowsTo b) (h' : b.GrowsTo c) : a.GrowsTo c :=
  ⟨h'.name.trans h.name, h.columns.trans h'.columns⟩

/-- The first column of a name stays the first. -/
theorem Table.GrowsTo.column?_eq {a b : Table} (h : a.GrowsTo b) {name : Name} {c : Column}
    (hc : a.column? name = some c) : b.column? name = some c :=
  h.columns.find?_eq_some hc

/-- A table grows when a column is appended, and nothing else changes. -/
theorem Workspace.growsTo_growItem (column : Column) (item : Item) :
    item.GrowsTo (growItem column item) := by
  cases item with
  | table t => exact .table ⟨rfl, List.prefix_append _ _⟩
  | _ => exact .same _

theorem Workspace.name?_growItem (column : Column) (item : Item) :
    (growItem column item).name? = item.name? := by
  cases item <;> rfl

namespace Schema

/-- What a name stands for in the earlier schema, it stands for in the later one. -/
structure GrowsTo (s t : Schema) : Prop where
  tables : ∀ {name a}, s.table? name = some a → ∃ b, t.table? name = some b ∧ a.GrowsTo b
  enumerations : ∀ {name e}, s.enumeration? name = some e → t.enumeration? name = some e

namespace GrowsTo

variable {s t u : Schema} {item item' : Item}

theorem refl (s : Schema) : s.GrowsTo s := ⟨fun ha => ⟨_, ha, .refl _⟩, id⟩

theorem trans (h : s.GrowsTo t) (h' : t.GrowsTo u) : s.GrowsTo u where
  tables ha := by
    obtain ⟨b, hb, hab⟩ := h.tables ha
    obtain ⟨c, hc, hbc⟩ := h'.tables hb
    exact ⟨c, hc, hab.trans hbc⟩
  enumerations he := h'.enumerations (h.enumerations he)

/-! ## How schemas grow -/

/-- Items behind the last are found only where no earlier one is. -/
theorem append (s more : Schema) : s.GrowsTo (s ++ more) where
  tables {name a} ha := by
    refine ⟨a, ?_, .refl a⟩
    rw [table?, List.filterMap_append, List.find?_append]
    exact Option.or_eq_some_iff.2 (.inl ha)
  enumerations {name e} he := by
    rw [enumeration?, List.filterMap_append, List.find?_append]
    exact Option.or_eq_some_iff.2 (.inl he)

theorem cons (hitem : item.GrowsTo item') (h : s.GrowsTo t) :
    GrowsTo (item :: s) (item' :: t) := by
  cases hitem with
  | @table a b hab =>
    refine ⟨fun {name c} hc => ?_, fun he => h.enumerations he⟩
    simp only [table?, List.filterMap_cons, Item.table?, List.find?_cons, hab.name] at hc ⊢
    split at hc
    · obtain rfl := Option.some.inj hc
      exact ⟨b, rfl, hab⟩
    · exact h.tables hc
  | same item =>
    cases item with
    | table a =>
      refine ⟨fun {name c} hc => ?_, fun he => h.enumerations he⟩
      simp only [table?, List.filterMap_cons, Item.table?, List.find?_cons] at hc ⊢
      split at hc
      · obtain rfl := Option.some.inj hc
        exact ⟨a, rfl, .refl a⟩
      · exact h.tables hc
    | enumeration m =>
      refine ⟨fun hc => h.tables hc, fun {name e} he => ?_⟩
      simp only [enumeration?, List.filterMap_cons, Item.enumeration?, List.find?_cons] at he ⊢
      split at he
      · exact he
      · exact h.enumerations he
    | other x => exact ⟨fun hc => h.tables hc, fun he => h.enumerations he⟩

/-- Growing the item at a position makes the schema grow. -/
theorem modify {grow : Item → Item} (hgrow : ∀ item : Item, item.GrowsTo (grow item)) (s : Schema)
    (position : Nat) : s.GrowsTo (s.modify position grow) := by
  induction s generalizing position with
  | nil => cases position <;> exact .refl _
  | cons item rest ih =>
    cases position with
    | zero => exact cons (hgrow item) (.refl rest)
    | succ position => exact cons (.same item) (ih position)

end GrowsTo

/-! ## What references are resolved to -/

/-- What is not there may be there later, but what stands where no name can will never be found. -/
theorem lookUp_eq_error {α β : Type} {kind : ItemKind} {found : Option α} {name column : Name}
    {e : ReferenceError} (h : lookUp kind found name column = .error e)
    (hmissing : e.isMissing = false) (later : Option β) :
    lookUp kind later name column = .error e := by
  unfold lookUp at h ⊢
  split at h
  · next hname => rw [if_pos hname, Except.error.inj h]
  · split at h
    · contradiction
    · obtain rfl := Except.error.inj h
      cases hmissing

namespace GrowsTo

variable {s t : Schema} {table key owner column name : Name}

theorem enumerationOf_eq (h : s.GrowsTo t)
    (hsettled : ∀ e, s.enumerationOf name column = .error e → e.isMissing = false) :
    t.enumerationOf name column = s.enumerationOf name column := by
  cases hs : s.enumerationOf name column with
  | error e => exact lookUp_eq_error hs (hsettled e hs) _
  | ok m =>
    obtain ⟨hname, hm⟩ := lookUp_eq_ok_iff.1 hs
    exact lookUp_eq_ok_iff.2 ⟨hname, h.enumerations hm⟩

/-- A relation that refers to a column of the earlier schema refers to it in the later one. -/
theorem targetOf_eq_ok (h : s.GrowsTo t) {a : Target}
    (ha : s.targetOf table key owner column = .ok a) :
    ∃ b, t.targetOf table key owner column = .ok b ∧ b.table.name = a.table.name ∧
      b.column = a.column := by
  obtain ⟨⟨hname, htable⟩, hcolumn⟩ := targetOf_eq_ok_iff.1 ha
  obtain ⟨b, hb, hab⟩ := h.tables htable
  exact ⟨⟨b, a.column⟩, targetOf_eq_ok_iff.2 ⟨⟨hname, hb⟩, hab.column?_eq hcolumn⟩, hab.name, rfl⟩

theorem targetOf_eq_error {e : ReferenceError}
    (he : s.targetOf table key owner column = .error e) (hmissing : e.isMissing = false) :
    t.targetOf table key owner column = .error e := by
  rw [targetOf, bind_eq_error_iff] at he ⊢
  rcases he with he | ⟨a, -, he⟩
  · exact .inl (lookUp_eq_error he hmissing _)
  · split at he
    · cases he
    · obtain rfl := Except.error.inj he
      cases hmissing

/-- **Along a chain** the search goes the same way in the later schema: each relation on the way
refers to the same column, as far as the search gets. -/
theorem typeAlong_eq (h : s.GrowsTo t) {chain : List Text} {type : ColumnType}
    (hsettled : ∀ e, s.typeAlong chain type owner column = .error e → e.isMissing = false) :
    t.typeAlong chain type owner column = s.typeAlong chain type owner column := by
  induction chain, type, owner, column using typeAlong.induct s with
  | case9 chain owner column name table key hseen target htarget ih =>
    rw [typeAlong_relation, if_neg hseen, htarget] at hsettled
    obtain ⟨later, hlater, hname, hcolumn⟩ := h.targetOf_eq_ok htarget
    rw [typeAlong_relation, typeAlong_relation, if_neg hseen, if_neg hseen, htarget, hlater]
    change t.typeAlong _ later.column.type later.table.name later.column.name = _
    rw [hname, hcolumn]
    exact ih hsettled
  | case8 chain owner column name table key hseen e herror =>
    rw [typeAlong_relation, if_neg hseen, herror] at hsettled
    have hlater := targetOf_eq_error (t := t) herror (hsettled e rfl)
    rw [typeAlong_relation, typeAlong_relation, if_neg hseen, if_neg hseen, herror, hlater]
    rfl
  | case7 chain owner column name table key hseen =>
    rw [typeAlong_relation, typeAlong_relation, if_pos hseen, if_pos hseen]
  | case6 chain owner column name members =>
    have hfound : t.enumerationOf members column = s.enumerationOf members column := by
      refine h.enumerationOf_eq fun e he => hsettled e ?_
      rw [typeAlong, he]
      rfl
    rw [typeAlong, typeAlong, hfound]
  | _ => simp only [typeAlong]

theorem typeOf_eq (h : s.GrowsTo t) {type : ColumnType}
    (hsettled : ∀ e, s.typeOf type owner column = .error e → e.isMissing = false) :
    t.typeOf type owner column = s.typeOf type owner column :=
  h.typeAlong_eq hsettled

end GrowsTo

end Schema

namespace Workspace

variable {options : Options} {schema : Schema} {w : Workspace} {type : ColumnType}
  {owner column : Name}

/-! ## Growth at work -/

/-- A change by which the schema of a workspace grows. -/
inductive Growth where
  | item (item : Item)
  | column (position : Nat) (column : Column)

/-- Makes a change. -/
def grow (w : Workspace) : Growth → Workspace
  | .item item => w.appendItem item
  | .column position column => w.appendColumn position column

/-- Makes changes, one after the other. -/
def growAll (w : Workspace) (changes : List Growth) : Workspace := changes.foldl grow w

/-- What names stand for in the schema, they stand for in the workspace, both by its index and by
an index that is taken anew. -/
structure Covers (schema : Schema) (w : Workspace) : Prop where
  index : schema.GrowsTo w.index
  items : schema.GrowsTo w.items
  indexed : w.indexed ≤ w.items.length

theorem ofSchema_eq_ok_iff :
    ofSchema options schema = .ok w ↔
      schema.checkNames = .ok () ∧ w = ⟨options, schema, schema.length⟩ := by
  rw [ofSchema, bind_eq_ok_iff]
  simp only [pure_eq_ok_iff, eq_comm (b := w)]
  constructor
  · rintro ⟨_, hnames, hw⟩
    exact ⟨hnames, hw⟩
  · rintro ⟨hnames, hw⟩
    exact ⟨(), hnames, hw⟩

theorem index_of_ofSchema (h : ofSchema options schema = .ok w) : w.index = schema := by
  obtain ⟨-, rfl⟩ := ofSchema_eq_ok_iff.1 h
  exact List.take_length

theorem Covers.start (h : ofSchema options schema = .ok w) : Covers schema w := by
  have hindex := index_of_ofSchema h
  obtain ⟨-, rfl⟩ := ofSchema_eq_ok_iff.1 h
  refine ⟨?_, .refl schema, Nat.le_refl _⟩
  rw [hindex]
  exact .refl schema

/-- **One change** keeps what names stand for: a new item is behind all that the index knows, and a
new column behind those of its table. -/
theorem Covers.grow (h : Covers schema w) (change : Growth) : Covers schema (w.grow change) := by
  cases change with
  | item item =>
    have hindex : (w.appendItem item).index = w.index := List.take_append_of_le_length h.indexed
    refine ⟨?_, h.items.trans (.append w.items [item]), ?_⟩
    · change schema.GrowsTo (w.appendItem item).index
      rw [hindex]
      exact h.index
    · change w.indexed ≤ (w.items ++ [item]).length
      rw [List.length_append]
      exact Nat.le_add_right_of_le h.indexed
  | column position column =>
    have hgrow := growsTo_growItem column
    have hindex : (w.appendColumn position column).index =
        w.index.modify position (growItem column) := List.take_modify _ _ _ _
    refine ⟨?_, h.items.trans (.modify hgrow w.items position), ?_⟩
    · change schema.GrowsTo (w.appendColumn position column).index
      rw [hindex]
      exact h.index.trans (.modify hgrow w.index position)
    · change w.indexed ≤ (w.items.modify position (growItem column)).length
      rw [List.length_modify]
      exact h.indexed

/-- **All changes** keep what names stand for. -/
theorem Covers.growAll (h : Covers schema w) (changes : List Growth) :
    Covers schema (w.growAll changes) := by
  induction changes generalizing w with
  | nil => exact h
  | cons change rest ih => exact ih (h.grow change)

theorem filterMap_name?_modify (column : Column) (items : List Item) (position : Nat) :
    (items.modify position (growItem column)).filterMap Item.name? =
      items.filterMap Item.name? := by
  induction items generalizing position with
  | nil => cases position <;> rfl
  | cons item rest ih =>
    cases position with
    | zero => simp only [List.modify_zero_cons, List.filterMap_cons, name?_growItem]
    | succ position => simp only [List.modify_succ_cons, List.filterMap_cons, ih]

/-- An index can be taken anew after new items with names by which they can be found. -/
theorem checkNames_growAll (h : Schema.checkNames w.items = .ok ()) {changes : List Growth}
    (hnames : ∀ item, .item item ∈ changes → ∀ name, item.name? = some name →
      name.isCompound = false) : Schema.checkNames (w.growAll changes).items = .ok () := by
  induction changes generalizing w with
  | nil => exact h
  | cons change rest ih =>
    refine ih ?_ fun item hitem => hnames item (List.mem_cons_of_mem _ hitem)
    rw [Schema.checkNames_eq_ok_iff] at h ⊢
    cases change with
    | item item =>
      change ∀ name ∈ (w.items ++ [item]).filterMap Item.name?, name.isCompound = false
      rw [List.filterMap_append]
      intro name hname
      rcases List.mem_append.1 hname with hname | hname
      · exact h name hname
      · obtain ⟨_, hlast, hsome⟩ := List.mem_filterMap.1 hname
        obtain rfl := List.mem_singleton.1 hlast
        exact hnames _ List.mem_cons_self name hsome
    | column position column =>
      change ∀ name ∈ (w.items.modify position (growItem column)).filterMap Item.name?, _
      rw [filterMap_name?_modify]
      exact h

/-- **Types stay while a schema grows**: unless an item or a column was missing, a column type is
resolved as before, be it a type or an error, both by the index that was taken before the growth
and by one that is taken anew. -/
theorem typeOf_growAll (hopen : ofSchema options schema = .ok w) (changes : List Growth)
    (hsettled : ∀ e, schema.typeOf type owner column = .error e → e.isMissing = false) :
    (w.growAll changes).index.typeOf type owner column = schema.typeOf type owner column ∧
    (∀ rebuilt, (w.growAll changes).reindex = .ok rebuilt →
      rebuilt.index.typeOf type owner column = schema.typeOf type owner column) ∧
    ((∀ item, .item item ∈ changes → ∀ name, item.name? = some name → name.isCompound = false) →
      ∃ rebuilt, (w.growAll changes).reindex = .ok rebuilt) := by
  have hcovers := (Covers.start hopen).growAll changes
  refine ⟨hcovers.index.typeOf_eq hsettled, fun rebuilt hrebuilt => ?_, fun hnames => ?_⟩
  · rw [index_of_ofSchema hrebuilt]
    exact hcovers.items.typeOf_eq hsettled
  · obtain ⟨hchecked, rfl⟩ := ofSchema_eq_ok_iff.1 hopen
    exact ⟨_, ofSchema_eq_ok_iff.2 ⟨checkNames_growAll hchecked hnames, rfl⟩⟩

/-- Two tables whose columns refer to each other. -/
def loop : Schema :=
  [.table ⟨.text "Order", [⟨.text "bill", .relation (.text "relation") (.text "Bill") (.text "order"),
      []⟩]⟩,
    .table ⟨.text "Bill", [⟨.text "order", .relation (.text "relation") (.text "Order")
      (.text "bill"), []⟩]⟩]

/-- A table of a name that is taken, and a column of a name that is taken in its table: neither is
found. -/
def laterBills : List Growth :=
  [.item (.table ⟨.text "Bill", [⟨.text "order", .common (.text "int"), []⟩]⟩),
    .column 0 ⟨.text "bill", .common (.text "int"), []⟩]

theorem typeOf_growAll_loop :
    ∃ w rebuilt, ofSchema {} loop = .ok w ∧ (w.growAll laterBills).reindex = .ok rebuilt ∧
      loop.typeOf (.relation (.text "relation") (.text "Bill") (.text "order")) (.text "Order")
        (.text "bill") = .error (.circular ["Order.bill", "Bill.order", "Order.bill"]) ∧
      (w.growAll laterBills).index.typeOf (.relation (.text "relation") (.text "Bill")
        (.text "order")) (.text "Order") (.text "bill") =
          .error (.circular ["Order.bill", "Bill.order", "Order.bill"]) ∧
      rebuilt.index.typeOf (.relation (.text "relation") (.text "Bill") (.text "order"))
        (.text "Order") (.text "bill") =
          .error (.circular ["Order.bill", "Bill.order", "Order.bill"]) := by
  have hopen : ofSchema {} loop = .ok ⟨{}, loop, 2⟩ := rfl
  have hloop : loop.typeOf (.relation (.text "relation") (.text "Bill") (.text "order"))
      (.text "Order") (.text "bill") =
        .error (.circular ["Order.bill", "Bill.order", "Order.bill"]) := by decide +kernel
  obtain ⟨hindex, hrebuilt, hexists⟩ := typeOf_growAll hopen laterBills
    (fun e he => by obtain rfl := Except.error.inj (hloop.symm.trans he); rfl)
  obtain ⟨rebuilt, hreindex⟩ := hexists fun item hitem name hname => by
    simp only [laterBills, List.mem_cons, Growth.item.injEq, reduceCtorEq, List.not_mem_nil,
      or_false] at hitem
    subst hitem
    obtain rfl := Option.some.inj hname
    rfl
  exact ⟨_, rebuilt, hopen, hreindex, hloop, hindex.trans hloop,
    (hrebuilt rebuilt hreindex).trans hloop⟩

end Workspace

end SchemaScribe
