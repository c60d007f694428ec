import Mathlib.Logic.Relator
import SchemaScribe.Proofs.Model.Field
import SchemaScribe.Proofs.Model.Walk

/-!
# Cycles of relations

A search for a type knows the columns on its way by their links, and a link is a text: two columns
can have one link when a name holds a dot, when a table or a column is defined twice, or when a
name is no text. Here a column is known by its place, the item and the position in it, and the
columns from which the search reports a circular relation are compared with those from which the
relations return to a place (`circular_iff_returns`).

A relation leads to one place (`Place.leads_rightUnique`), so that there is one way from each place.
What is needed of such ways holds for chains of any relation of this kind.
-/

namespace SchemaScribe

/-! ## Chains that can go on in one way only -/

section Chains

variable {α : Type} {r : α → α → Prop} {path way : List α} {last : α}

/-- Of two chains from one start, one goes on where the other ends. -/
theorem comparable_of_isChain (hr : Relator.RightUnique r) (hpath : path.IsChain r)
    (hway : way.IsChain r) (hstart : path.head? = way.head?) : path <+: way ∨ way <+: path := by
  induction path generalizing way with
  | nil => exact .inl List.nil_prefix
  | cons a rest ih =>
    obtain ⟨more, rfl⟩ : ∃ more, way = a :: more := List.head?_eq_some_iff.1 hstart.symm
    rw [List.prefix_cons_inj, List.prefix_cons_inj]
    cases rest with
    | nil => exact .inl List.nil_prefix
    | cons b rest =>
      cases more with
      | nil => exact .inr List.nil_prefix
      | cons c more =>
        obtain ⟨hab, hrest⟩ := List.isChain_cons_cons.1 hpath
        obtain ⟨hac, hmore⟩ := List.isChain_cons_cons.1 hway
        obtain rfl := hr hab hac
        exact ih hrest hmore rfl

/-- A chain does not go on beyond an element that leads nowhere. -/
theorem eq_of_prefix_of_end (hlast : ∀ a, ¬ r last a) (hway : way.IsChain r)
    (hbefore : path ++ [last] <+: way) : path ++ [last] = way := by
  obtain ⟨rest, rfl⟩ := hbefore
  cases rest with
  | nil => exact (List.append_nil _).symm
  | cons a rest =>
    have hstep := (List.isChain_append.1 hway).2.2 last (by simp) a rfl
    exact absurd hstep (hlast a)

/-- A chain that ends where nothing follows goes through no element twice: from its second place
the element would lead to the end on a shorter way. -/
theorem nodup_of_end (hr : Relator.RightUnique r) (hlast : ∀ a, ¬ r last a)
    (hpath : (path ++ [last]).IsChain r) : (path ++ [last]).Nodup := by
  induction path with
  | nil => exact List.nodup_singleton last
  | cons a rest ih =>
    rw [List.cons_append, List.nodup_cons]
    refine ⟨fun hmem => ?_, ih hpath.tail⟩
    obtain ⟨before, after, hsplit⟩ := List.append_of_mem hmem
    have hsuffix : a :: after <:+ rest ++ [last] := ⟨before, hsplit.symm⟩
    obtain hnil | ⟨way, hway, -⟩ := List.suffix_concat_iff.1 hsuffix
    · cases hnil
    have hafter : (way ++ [last]).IsChain r := hway ▸ hpath.tail.suffix hsuffix
    have hstart : (a :: rest ++ [last]).head? = (way ++ [last]).head? := by rw [← hway]; rfl
    have hequal : a :: rest ++ [last] = way ++ [last] :=
      (comparable_of_isChain hr hpath hafter hstart).elim
        (eq_of_prefix_of_end hlast hafter) fun h => (eq_of_prefix_of_end hlast hpath h).symm
    have hrest : rest ++ [last] = after := (List.cons.inj (hequal.trans hway.symm)).2
    have hshorter := congrArg List.length hsplit
    rw [hrest, List.length_append, List.length_cons] at hshorter
    omega

/-- From where one chain comes to an end, no chain goes through an element twice. -/
theorem nodup_of_reaches_end (hr : Relator.RightUnique r) (hlast : ∀ a, ¬ r last a)
    (hway : (way ++ [last]).IsChain r) (hpath : path.IsChain r)
    (hstart : path.head? = (way ++ [last]).head?) : path.Nodup := by
  have hnodup := nodup_of_end hr hlast hway
  rcases comparable_of_isChain hr hpath hway hstart with h | h
  · exact hnodup.sublist h.sublist
  · exact eq_of_prefix_of_end hlast hpath h ▸ hnodup

end Chains

namespace Schema

variable {options : Options} {schema : Schema} {s start next last : Stop}
  {table key owner column : Name} {chain : List Text} {e : ReferenceError}

/-! ## Reports of the search -/

theorem follows_rightUnique (schema : Schema) : Relator.RightUnique schema.Follows :=
  fun _ _ _ h h' => h.unique h'

theorem lookUp_ne_circular {α : Type} {kind : ItemKind} {found : Option α} :
    lookUp kind found table column ≠ .error (.circular chain) := by
  unfold lookUp
  split
  · simp
  · cases found <;> simp

/-- To resolve a relation is no reason for a report. -/
theorem targetOf_ne_circular :
    schema.targetOf table key owner column ≠ .error (.circular chain) := by
  unfold targetOf
  cases htable : schema.tableOf table column with
  | error e =>
    rintro h
    obtain rfl := Except.error.inj h
    exact lookUp_ne_circular htable
  | ok target =>
    cases hkey : target.column? key <;> simp [bind, Except.bind, hkey, pure, Except.pure]

theorem typeOf_ne_circular {type : ColumnType} (h : ¬ type.IsRelation) :
    schema.typeOf type owner column ≠ .error (.circular chain) := by
  cases type with
  | relation name table key => exact absurd ⟨name, table, key, rfl⟩ h
  | enumeration name members =>
    rw [typeOf, typeAlong]
    cases hfound : schema.enumerationOf members column with
    | error e =>
      rintro h
      obtain rfl := Except.error.inj h
      exact lookUp_ne_circular hfound
    | ok found => simp [bind, Except.bind, pure, Except.pure]
  | common name =>
    rw [typeOf, typeAlong]
    split
    · simp
    · split <;> simp
  | _ => simp [typeOf, typeAlong]

/-- On a chain of stops, all but the last are relations. -/
theorem isRelation_of_isChain {path : List Stop} (hpath : (path ++ [last]).IsChain schema.Follows) :
    ∀ s ∈ path, s.type.IsRelation := by
  induction path with
  | nil => exact fun s hs => absurd hs List.not_mem_nil
  | cons t rest ih =>
    refine List.forall_mem_cons.2 ⟨?_, ih hpath.tail⟩
    cases rest with
    | nil => exact (List.isChain_cons_cons.1 hpath).1.isRelation
    | cons u rest => exact (List.isChain_cons_cons.1 hpath).1.isRelation

/-- There is one way from a start, whether a search goes it or not. -/
theorem Walk.comparable {walked path : List Stop} (h : Walk schema start walked last)
    (hpath : path.IsChain schema.Follows) (hstart : path.head? = some start) :
    path <+: walked ++ [last] ∨ walked ++ [last] <+: path :=
  comparable_of_isChain (follows_rightUnique schema) hpath h.follows
    (hstart.trans h.starts.symm)

/-- **When a circular relation is reported**: relations lead from the start to two stops with one
link. -/
theorem typeAt_circular_iff :
    (∃ chain, schema.typeAt start = .error (.circular chain)) ↔ ∃ path : List Stop,
      path.head? = some start ∧ path.IsChain schema.Follows ∧ (∀ s ∈ path, s.type.IsRelation) ∧
      ¬ (path.map Stop.link).Nodup := by
  have hends := ends_typeAt schema start
  generalize (schema.search start).2 = asked, hresult : schema.typeAt start = result at hends
  cases hends with
  | @plain walked last hwalk hlast =>
    refine iff_of_false (fun ⟨chain, h⟩ => typeOf_ne_circular hlast h) ?_
    rintro ⟨path, hstart, hpath, hrelations, hlinks⟩
    rcases hwalk.comparable hpath hstart with h | h
    · rcases List.prefix_concat_iff.1 h with rfl | h
      · exact hlast (hrelations last (by simp))
      · exact hlinks (hwalk.distinct.sublist (h.sublist.map _))
    · exact hlast (hrelations last (h.subset (by simp)))
  | @failed walked last e hwalk hnew hlast =>
    obtain ⟨name, table, key, -, herror⟩ := id hlast
    refine iff_of_false (fun ⟨chain, h⟩ => ?_) ?_
    · rw [Except.error.inj h] at herror
      exact targetOf_ne_circular herror
    rintro ⟨path, hstart, hpath, -, hlinks⟩
    have hdistinct := nodup_concat hwalk.distinct hnew
    rcases hwalk.comparable hpath hstart with h | h
    · exact hlinks (hdistinct.sublist (h.sublist.map _))
    · exact hlinks (eq_of_prefix_of_end (fun _ => hlast.not_follows) hpath h ▸ hdistinct)
  | @circular _ last hwalk hlast hseen =>
    refine iff_of_true ⟨_, rfl⟩ ⟨asked ++ [last], hwalk.starts, hwalk.follows, ?_, ?_⟩
    · rintro s hs
      rcases List.mem_append.1 hs with hs | hs
      · exact isRelation_of_isChain hwalk.follows s hs
      · exact List.mem_singleton.1 hs ▸ hlast
    · rw [List.map_append, List.map_singleton, List.nodup_append]
      exact fun h => h.2.2 _ hseen _ (List.mem_singleton_self _) rfl

/-! ## Places -/

/-- A column of a table of a schema, by its position and that of the table. -/
structure Place (schema : Schema) where
  item : Nat
  position : Nat
  table : Table
  column : Column
  table_eq : schema[item]? = some (.table table)
  column_eq : table.columns[position]? = some column

namespace Place

variable {schema : Schema} {p q a : Place schema}

/-- The stop of a search at a place. -/
def stop (p : Place schema) : Stop := ⟨p.column.type, p.table.name, p.column.name⟩

/-- The link of the column at a place. -/
def link (p : Place schema) : Text := SchemaScribe.link p.table.name p.column.name

/-- There is a relation at the place. -/
def IsRelation (p : Place schema) : Prop := p.column.type.IsRelation

/-- The relation at a place is resolved to the column at the other: the first column of its name, in
the first table of its name. -/
def Leads (p q : Place schema) : Prop :=
  ∃ name table key, p.column.type = .relation name table key ∧
    schema.targetOf table key p.table.name p.column.name = .ok ⟨q.table, q.column⟩ ∧
    q.item = schema.findIdx (·.table?.any (·.name.key = table.key)) ∧
    q.position = q.table.columns.findIdx (·.name.equals key)

/-- A place is where it is. -/
theorem eq_of_item_of_position (hitem : p.item = q.item) (hposition : p.position = q.position) :
    p = q := by
  obtain ⟨i, j, t, c, ht, hc⟩ := p
  obtain ⟨i', j', t', c', ht', hc'⟩ := q
  obtain rfl : i = i' := hitem
  obtain rfl : j = j' := hposition
  obtain rfl : t = t' := Item.table.inj (Option.some.inj (ht.symm.trans ht'))
  obtain rfl : c = c' := Option.some.inj (hc.symm.trans hc')
  rfl

theorem leads_rightUnique (schema : Schema) : Relator.RightUnique (@Leads schema) := by
  rintro p q q' ⟨name, table, key, htype, htarget, hitem, hposition⟩
    ⟨name', table', key', htype', htarget', hitem', hposition'⟩
  obtain ⟨-, rfl, rfl⟩ := ColumnType.relation.inj (htype.symm.trans htype')
  have htable : q.table = q'.table :=
    congrArg Target.table (Except.ok.inj (htarget.symm.trans htarget'))
  refine eq_of_item_of_position (hitem.trans hitem'.symm) ?_
  rw [hposition, hposition', htable]

theorem Leads.isRelation (h : p.Leads q) : p.IsRelation := by
  obtain ⟨name, table, key, htype, -⟩ := h
  exact ⟨name, table, key, htype⟩

theorem Leads.follows (h : p.Leads q) : schema.Follows p.stop q.stop := by
  obtain ⟨name, table, key, htype, htarget, -⟩ := h
  exact ⟨name, table, key, htype, _, htarget, rfl⟩

/-- What a relation at a place is resolved to has a place. -/
theorem exists_leads (h : schema.Follows p.stop next) : ∃ q, p.Leads q ∧ q.stop = next := by
  obtain ⟨name, table, key, htype, target, htarget, rfl⟩ := h
  obtain ⟨⟨-, htable⟩, hcolumn⟩ := targetOf_eq_ok_iff.1 htarget
  rw [table?, List.find?_filterMap, Option.bind_eq_some_iff] at htable
  obtain ⟨item, hitem, hitem'⟩ := htable
  obtain rfl : item = .table target.table := by
    cases item <;> simp_all [Item.table?]
  rw [List.find?_eq_getElem?_findIdx] at hitem
  rw [Table.column?, List.find?_eq_getElem?_findIdx] at hcolumn
  exact ⟨⟨_, _, target.table, target.column, hitem, hcolumn⟩,
    ⟨name, table, key, htype, htarget, rfl, rfl⟩, rfl⟩

/-- A chain of stops that starts at a place is one of places. -/
theorem exists_isChain {path : List Stop} (hpath : path.IsChain schema.Follows)
    (hstart : path.head? = some p.stop) : ∃ places : List (Place schema),
      places.head? = some p ∧ places.IsChain Leads ∧ places.map stop = path := by
  induction path generalizing p with
  | nil => cases hstart
  | cons s rest ih =>
    obtain rfl : s = p.stop := Option.some.inj hstart
    cases rest with
    | nil => exact ⟨[p], rfl, List.isChain_singleton p, rfl⟩
    | cons t more =>
      obtain ⟨hst, hmore⟩ := List.isChain_cons_cons.1 hpath
      obtain ⟨q, hleads, hq⟩ := exists_leads hst
      obtain ⟨places, hhead, hplaces, hstops⟩ := ih hmore (congrArg some hq.symm)
      obtain ⟨later, rfl⟩ := List.head?_eq_some_iff.1 hhead
      refine ⟨p :: q :: later, rfl, List.isChain_cons_cons.2 ⟨hleads, hplaces⟩, ?_⟩
      rw [List.map_cons, hstops]

/-- A relation leads on, or the search fails at it; anything else is an end. -/
theorem not_leads_of_not_isRelation (h : ¬ p.IsRelation) (q : Place schema) : ¬ p.Leads q :=
  fun hleads => h hleads.isRelation

/-- A chain of places that goes through one twice is of relations only. -/
theorem isRelation_of_not_nodup {path : List (Place schema)} (hpath : path.IsChain Leads)
    (hreturns : ¬ path.Nodup) : ∀ q ∈ path, q.IsRelation := by
  rcases List.eq_nil_or_concat path with rfl | ⟨before, last, rfl⟩
  · exact fun q hq => absurd hq List.not_mem_nil
  rw [List.concat_eq_append] at hpath hreturns ⊢
  have hlast : last.IsRelation := by
    by_contra hlast
    exact hreturns
      (nodup_of_end (leads_rightUnique schema) (not_leads_of_not_isRelation hlast) hpath)
  have hstops : (before.map stop ++ [last.stop]).IsChain schema.Follows := by
    have h := List.isChain_map_of_isChain stop (fun _ _ h => Leads.follows h) hpath
    rwa [List.map_append] at h
  intro q hq
  rcases List.mem_append.1 hq with hq | hq
  · exact isRelation_of_isChain hstops q.stop (List.mem_map_of_mem hq)
  · exact List.mem_singleton.1 hq ▸ hlast

/-- Where no two columns have one link, a link tells the place. -/
theorem eq_of_link_eq (hlinks : schema.links.Nodup) (h : p.link = q.link) : p = q := by
  obtain ⟨hcolumns, htables⟩ := List.nodup_flatMap.1 hlinks
  rw [List.pairwise_filterMap, List.pairwise_iff_getElem] at htables
  have hmem : ∀ p : Place schema,
      p.link ∈ p.table.columns.map fun c => SchemaScribe.link p.table.name c.name :=
    fun p => List.mem_map.2 ⟨p.column, List.mem_of_getElem? p.column_eq, rfl⟩
  have hapart : ∀ p q : Place schema, p.item < q.item → p.link ≠ q.link := by
    intro p q hlt hlink
    obtain ⟨hp, htable⟩ := List.getElem?_eq_some_iff.1 p.table_eq
    obtain ⟨hq, htable'⟩ := List.getElem?_eq_some_iff.1 q.table_eq
    have hdisjoint := htables _ _ hp hq hlt p.table (by rw [htable]; rfl) q.table
      (by rw [htable']; rfl)
    exact hdisjoint (hmem p) (hlink ▸ hmem q)
  have hitem : p.item = q.item := by
    rcases Nat.lt_trichotomy p.item q.item with hlt | heq | hgt
    · exact absurd h (hapart p q hlt)
    · exact heq
    · exact absurd h.symm (hapart q p hgt)
  have htable : p.table = q.table :=
    Item.table.inj (Option.some.inj (p.table_eq.symm.trans (hitem ▸ q.table_eq)))
  refine eq_of_item_of_position hitem ?_
  have hnodup := hcolumns p.table
    (List.mem_filterMap.2 ⟨_, List.mem_of_getElem? p.table_eq, rfl⟩)
  refine (List.getElem?_inj ?_ hnodup).1 ?_
  · rw [List.length_map]
    exact (List.getElem?_eq_some_iff.1 p.column_eq).1
  · rw [List.getElem?_map, List.getElem?_map, p.column_eq, htable, q.column_eq]
    rw [link, link, htable] at h
    exact congrArg some h

end Place

variable {a : Place schema}

/-- **When a circular relation is reported** for a column: relations lead from its place to two
places with one link. -/
theorem circular_iff_link_returns :
    (∃ chain, schema.fieldsOf options a.table a.column = .error (.circular chain)) ↔
      ∃ path : List (Place schema), path.head? = some a ∧ path.IsChain Place.Leads ∧
        (∀ p ∈ path, p.IsRelation) ∧ ¬ (path.map Place.link).Nodup := by
  have hreport : (∃ chain, schema.fieldsOf options a.table a.column = .error (.circular chain)) ↔
      ∃ chain, schema.typeAt a.stop = .error (.circular chain) :=
    exists_congr fun chain => fieldsOf_eq_error_iff
  rw [hreport, typeAt_circular_iff]
  constructor
  · rintro ⟨path, hstart, hpath, hrelations, hlinks⟩
    obtain ⟨places, hhead, hplaces, rfl⟩ := Place.exists_isChain hpath hstart
    rw [List.map_map] at hlinks
    exact ⟨places, hhead, hplaces, fun p hp => hrelations _ (List.mem_map_of_mem hp), hlinks⟩
  · rintro ⟨places, hhead, hplaces, hrelations, hlinks⟩
    refine ⟨places.map Place.stop, ?_, ?_, ?_, ?_⟩
    · rw [List.head?_map, hhead]
      rfl
    · exact List.isChain_map_of_isChain _ (fun _ _ h => Place.Leads.follows h) hplaces
    · exact List.forall_mem_map.2 hrelations
    · rwa [List.map_map]

/-- **Circular relations**. One is reported for a column exactly when relations lead from its place
to two places with one link. So where the relations on the ways from there are told apart by their
links, it is reported exactly when a way returns to a place, and never when one comes to a column
that is no relation. -/
theorem circular_iff_returns (options : Options) (schema : Schema) (a : Place schema) :
    ((∃ chain, schema.fieldsOf options a.table a.column = .error (.circular chain)) ↔
      ∃ path : List (Place schema), path.head? = some a ∧ path.IsChain Place.Leads ∧
        (∀ p ∈ path, p.IsRelation) ∧ ¬ (path.map Place.link).Nodup) ∧
    ((∀ path : List (Place schema), path.head? = some a → path.IsChain Place.Leads →
        ∀ p ∈ path, ∀ q ∈ path, p.IsRelation → q.IsRelation → p.link = q.link → p = q) →
      ((∃ chain, schema.fieldsOf options a.table a.column = .error (.circular chain)) ↔
        ∃ path : List (Place schema), path.head? = some a ∧ path.IsChain Place.Leads ∧
          ¬ path.Nodup) ∧
      ∀ (path : List (Place schema)) (last : Place schema), (path ++ [last]).head? = some a →
        (path ++ [last]).IsChain Place.Leads → ¬ last.IsRelation →
        ∀ chain, schema.fieldsOf options a.table a.column ≠ .error (.circular chain)) := by
  refine ⟨circular_iff_link_returns, fun htold => ?_⟩
  have hreturns : (∃ chain, schema.fieldsOf options a.table a.column = .error (.circular chain)) ↔
      ∃ path : List (Place schema), path.head? = some a ∧ path.IsChain Place.Leads ∧
        ¬ path.Nodup := by
    rw [circular_iff_link_returns]
    refine exists_congr fun path => and_congr_right fun hstart => and_congr_right fun hpath => ?_
    constructor
    · rintro ⟨hrelations, hlinks⟩ hnodup
      exact hlinks (hnodup.map_on fun p hp q hq =>
        htold path hstart hpath p hp q hq (hrelations p hp) (hrelations q hq))
    · intro hnodup
      exact ⟨Place.isRelation_of_not_nodup hpath hnodup, fun hlinks => hnodup hlinks.of_map⟩
  refine ⟨hreturns, fun way last hway hchain hlast chain hreport => ?_⟩
  obtain ⟨path, hstart, hpath, hnodup⟩ := hreturns.1 ⟨chain, hreport⟩
  exact hnodup (nodup_of_reaches_end (Place.leads_rightUnique schema)
    (Place.not_leads_of_not_isRelation hlast) hchain hpath (hstart.trans hway.symm))

/-- The relations of two tables that refer to each other are told apart by their links. -/
theorem circular_iff_returns_entangled :
    ∃ path : List (Place entangled), path.head? = some ⟨0, 0, _, _, rfl, rfl⟩ ∧
      path.IsChain Place.Leads ∧ ¬ path.Nodup := by
  have hlinks : entangled.links.Nodup := by decide +kernel
  have hreport : entangled.typeOf (.relation .null (.text "Bill") (.text "order"))
      (.text "Order") (.text "bill") =
        .error (.circular ["Order.bill", "Bill.order", "Order.bill"]) := by decide +kernel
  refine ((circular_iff_returns {} entangled ⟨0, 0, _, _, rfl, rfl⟩).2 ?_).1.1
    ⟨_, fieldsOf_eq_error_iff.2 hreport⟩
  exact fun path _ _ p _ q _ _ _ h => Place.eq_of_link_eq hlinks h

/-- A table whose column has a dot in its name, and a table whose name has one. -/
def dottedShop : Schema :=
  [.table ⟨.text "shop",
      [⟨.text "item.code", .relation .null (.text "shop.item") (.text "code"), []⟩]⟩,
    .table ⟨.text "shop.item",
      [⟨.text "code", .relation .null (.text "catalog") (.text "id"), []⟩]⟩,
    .table ⟨.text "catalog", [⟨.text "id", .common (.text "int"), []⟩]⟩]

/-- A circular relation is reported although the relations come to a column that is none, and no
way returns to a place. -/
theorem dotted_reported :
    ∃ start next last : Place dottedShop, [start, next, last].IsChain Place.Leads ∧
      last.column.type = .common (.text "int") ∧
      (∀ path : List (Place dottedShop), path.head? = some start → path.IsChain Place.Leads →
        path.Nodup) ∧
      dottedShop.fieldsOf {} start.table start.column =
        .error (.circular ["shop.item.code", "shop.item.code"]) := by
  let start : Place dottedShop := ⟨0, 0, _, _, rfl, rfl⟩
  let next : Place dottedShop := ⟨1, 0, _, _, rfl, rfl⟩
  let last : Place dottedShop := ⟨2, 0, _, _, rfl, rfl⟩
  have hchain : [start, next, last].IsChain Place.Leads := by
    refine List.isChain_cons_cons.2 ⟨⟨_, _, _, rfl, ?_⟩, List.isChain_cons_cons.2
      ⟨⟨_, _, _, rfl, ?_⟩, List.isChain_singleton _⟩⟩
    · decide +kernel
    · decide +kernel
  have hlast : ¬ last.IsRelation := by
    rintro ⟨name, table, key, htype⟩
    cases htype
  refine ⟨start, next, last, hchain, rfl, fun path hstart hpath => ?_, by decide +kernel⟩
  have hchain' : ([start, next] ++ [last]).IsChain Place.Leads := hchain
  exact nodup_of_reaches_end (Place.leads_rightUnique dottedShop)
    (Place.not_leads_of_not_isRelation hlast) hchain' hpath hstart

end Schema

end SchemaScribe
