import Mathlib.Data.List.Chain
import Mathlib.Data.List.Perm.Subperm
import SchemaScribe.Proofs.Model.Chain
import SchemaScribe.Proofs.Occurrence

/-!
# Walks along relations

The search for a type walks from a column to the one that it refers to, and so on, and ends
(`search_ends`): at a column that is no relation and gives the type; at a relation that is not
resolved; or at a relation whose link has been met on the way, which is reported with the links of
the walk in order. It asks what a relation refers to at most once more often than there are columns
in the tables that names stand for, since the links on the way are all different and all but the
first are those of such columns.

What holds of the walk wherever the search stands is `Walk`, and `Ends` lists how it can end.
-/

namespace SchemaScribe

/-- Where a search stands: a column type, and the names of the column and its table. -/
structure Stop where
  type : ColumnType
  owner : Name
  column : Name
  deriving DecidableEq, Repr, Inhabited

/-- The link of the column at a stop. -/
def Stop.link (s : Stop) : Text := SchemaScribe.link s.owner s.column

/-- The stop at a column that a relation refers to. -/
def Target.stop (t : Target) : Stop := ⟨t.column.type, t.table.name, t.column.name⟩

namespace Schema

/-- The type with which the column at a stop is declared. -/
def typeAt (schema : Schema) (s : Stop) : Except ReferenceError FieldType :=
  schema.typeOf s.type s.owner s.column

/-- The relation at a stop is resolved to the column at the next. -/
def Follows (schema : Schema) (s next : Stop) : Prop :=
  ∃ name table key, s.type = .relation name table key ∧ ∃ target : Target,
    schema.targetOf table key s.owner s.column = .ok target ∧ next = target.stop

/-- The relation at a stop is not resolved. -/
def Fails (schema : Schema) (s : Stop) (e : ReferenceError) : Prop :=
  ∃ name table key, s.type = .relation name table key ∧
    schema.targetOf table key s.owner s.column = .error e

/-- The search for a type, and the stops at which it asks what a relation refers to, in order. -/
def searchAlong (schema : Schema) (chain : List Text) (s : Stop) :
    Except ReferenceError FieldType × List Stop :=
  match s.type with
  | .relation _ table key =>
    if _seen : s.link ∈ chain then (.error (.circular (chain ++ [s.link])), [])
    else
      match _found : schema.targetOf table key s.owner s.column with
      | .error e => (.error e, [s])
      | .ok target =>
        let (result, asked) := searchAlong schema (chain ++ [s.link]) target.stop
        (result, s :: asked)
  | type => (schema.typeOf type s.owner s.column, [])
termination_by schema.stepsLeft chain s.link
decreasing_by exact stepsLeft_lt ‹_› (link_mem_links ‹_›)

/-- The search for a type from a column on. -/
def search (schema : Schema) (start : Stop) : Except ReferenceError FieldType × List Stop :=
  schema.searchAlong [] start

/-- The tables that names stand for: the first of each name. -/
def indexedTables (schema : Schema) : List Table :=
  firstsBy (·.name.key) (schema.filterMap Item.table?)

/-- The columns of the tables that names stand for. -/
def indexedColumns (schema : Schema) : List Target :=
  schema.indexedTables.flatMap fun t => t.columns.map fun c => ⟨t, c⟩

variable {schema : Schema} {chain : List Text} {start s t here next last : Stop}
  {walked path : List Stop} {found : FieldType} {e : ReferenceError}

/-! ## One step -/

theorem Follows.isRelation (h : schema.Follows s next) : s.type.IsRelation := by
  obtain ⟨name, table, key, htype, -⟩ := h
  exact ⟨name, table, key, htype⟩

/-- A relation refers to one column. -/
theorem Follows.unique (h : schema.Follows s t) (h' : schema.Follows s next) : t = next := by
  obtain ⟨name, table, key, htype, target, htarget, rfl⟩ := h
  obtain ⟨name', table', key', htype', target', htarget', rfl⟩ := h'
  obtain ⟨-, rfl, rfl⟩ := ColumnType.relation.inj (htype.symm.trans htype')
  rw [Except.ok.inj (htarget.symm.trans htarget')]

theorem Fails.not_follows (h : schema.Fails s e) : ¬ schema.Follows s next := by
  rintro ⟨name, table, key, htype, target, htarget, -⟩
  obtain ⟨name', table', key', htype', herror⟩ := h
  obtain ⟨-, rfl, rfl⟩ := ColumnType.relation.inj (htype.symm.trans htype')
  cases htarget.symm.trans herror

/-- What a relation refers to is a column of a table that a name stands for. -/
theorem Follows.link_mem (h : schema.Follows s next) :
    next.link ∈ schema.indexedColumns.map fun a => a.stop.link := by
  obtain ⟨name, table, key, -, target, htarget, rfl⟩ := h
  obtain ⟨⟨-, htable⟩, hcolumn⟩ := targetOf_eq_ok_iff.1 htarget
  refine List.mem_map.2 ⟨target, ?_, rfl⟩
  refine List.mem_flatMap.2 ⟨target.table, mem_firstsBy_of_find? htable, ?_⟩
  exact List.mem_map.2 ⟨target.column, List.mem_of_find?_eq_some hcolumn, rfl⟩

/-! ## Walks -/

/-- A search that started at a stop has come to another, over relations with different links. -/
structure Walk (schema : Schema) (start : Stop) (walked : List Stop) (here : Stop) : Prop where
  starts : (walked ++ [here]).head? = some start
  follows : (walked ++ [here]).IsChain schema.Follows
  distinct : (walked.map Stop.link).Nodup

theorem Walk.nil (schema : Schema) (start : Stop) : Walk schema start [] start where
  starts := rfl
  follows := List.isChain_singleton start
  distinct := List.nodup_nil

theorem nodup_concat (hwalked : (walked.map Stop.link).Nodup)
    (hnew : here.link ∉ walked.map Stop.link) : ((walked ++ [here]).map Stop.link).Nodup := by
  rw [List.map_append, List.map_singleton, List.nodup_append]
  refine ⟨hwalked, List.nodup_singleton _, ?_⟩
  rintro a ha b hb rfl
  exact hnew (List.mem_singleton.1 hb ▸ ha)

/-- **One step**: the walk goes on at a relation whose link is new. -/
theorem Walk.step (h : Walk schema start walked here) (hnew : here.link ∉ walked.map Stop.link)
    (hnext : schema.Follows here next) : Walk schema start (walked ++ [here]) next where
  starts := by
    rw [List.head?_append_of_ne_nil _ (by simp)]
    exact h.starts
  follows := h.follows.append (List.isChain_singleton next) (by simpa using hnext)
  distinct := nodup_concat h.distinct hnew

/-- On a chain of stops, all but the first are columns of tables that names stand for. -/
theorem links_subset_of_isChain (hpath : (s :: path).IsChain schema.Follows) :
    path.map Stop.link ⊆ schema.indexedColumns.map fun a => a.stop.link := by
  induction path generalizing s with
  | nil => exact List.nil_subset _
  | cons t rest ih =>
    obtain ⟨hst, hrest⟩ := List.isChain_cons_cons.1 hpath
    exact List.cons_subset.2 ⟨hst.link_mem, ih hrest⟩

/-- **The bound**: a chain of stops with different links is at most one longer than there are
columns that it can come to. -/
theorem length_le_of_isChain (hpath : path.IsChain schema.Follows)
    (hdistinct : (path.map Stop.link).Nodup) :
    path.length ≤ schema.indexedColumns.length + 1 := by
  cases path with
  | nil => exact Nat.zero_le _
  | cons s rest =>
    have hrest := (List.nodup_cons.1 hdistinct).2
    have hlength := (hrest.subperm (links_subset_of_isChain hpath)).length_le
    simpa using hlength

/-- A chain of stops that starts on an endless path goes along it. -/
theorem eq_map_range_of_isChain {endless : Nat → Stop}
    (hendless : ∀ n, schema.Follows (endless n) (endless (n + 1)))
    (hpath : path.IsChain schema.Follows) (hstart : path.head? = some (endless 0)) :
    path = (List.range path.length).map endless := by
  induction path generalizing endless with
  | nil => cases hstart
  | cons s rest ih =>
    obtain rfl := Option.some.inj hstart
    rw [List.length_cons, List.range_succ_eq_map, List.map_cons, List.map_map]
    cases rest with
    | nil => rfl
    | cons t more =>
      obtain ⟨hst, hmore⟩ := List.isChain_cons_cons.1 hpath
      have ht : t = endless 1 := hst.unique (hendless 0)
      exact congrArg _ (ih (fun n => hendless (n + 1)) hmore (congrArg some ht))

/-! ## How a search ends -/

/-- How a search that started at a stop can end: the relations that it asked about, and its
result. -/
inductive Ends (schema : Schema) (start : Stop) :
    List Stop → Except ReferenceError FieldType → Prop
  /-- At a column that is no relation. -/
  | plain {walked : List Stop} {last : Stop} (h : Walk schema start walked last)
      (hlast : ¬ last.type.IsRelation) : Ends schema start walked (schema.typeAt last)
  /-- At a relation whose link was met before. -/
  | circular {walked : List Stop} {last : Stop} (h : Walk schema start walked last)
      (hlast : last.type.IsRelation) (hseen : last.link ∈ walked.map Stop.link) :
      Ends schema start walked (.error (.circular ((walked ++ [last]).map Stop.link)))
  /-- At a relation that is not resolved. -/
  | failed {walked : List Stop} {last : Stop} {e : ReferenceError}
      (h : Walk schema start walked last) (hnew : last.link ∉ walked.map Stop.link)
      (hlast : schema.Fails last e) : Ends schema start (walked ++ [last]) (.error e)

/-- From where a walk stands, the search ends in one of these ways: by induction on the search,
which takes the walk one step further. -/
theorem ends_searchAlong (h : Walk schema start walked here) :
    Ends schema start (walked ++ (schema.searchAlong (walked.map Stop.link) here).2)
      (schema.searchAlong (walked.map Stop.link) here).1 := by
  generalize hchain : walked.map Stop.link = chain
  fun_induction searchAlong schema chain here generalizing walked with
  | case1 chain s name table key htype hseen =>
    subst hchain
    have hlinks : walked.map Stop.link ++ [s.link] = (walked ++ [s]).map Stop.link := by simp
    rw [List.append_nil, hlinks]
    exact .circular h ⟨name, table, key, htype⟩ hseen
  | case2 chain s name table key htype hnew e herror =>
    subst hchain
    exact .failed h hnew ⟨name, table, key, htype, herror⟩
  | case3 chain s name table key htype hnew target htarget result asked hrest ih =>
    subst hchain
    have hnext : schema.Follows s target.stop := ⟨name, table, key, htype, target, htarget, rfl⟩
    have hends := ih (h.step hnew hnext) (by simp)
    rw [hrest, List.append_assoc] at hends
    exact hends
  | case4 chain s htype =>
    rw [List.append_nil]
    exact .plain h fun ⟨name, table, key, hrelation⟩ => htype name table key hrelation

theorem ends_search (schema : Schema) (start : Stop) :
    Ends schema start (schema.search start).2 (schema.search start).1 :=
  ends_searchAlong (Walk.nil schema start)

/-- To write down what is asked changes nothing. -/
theorem searchAlong_fst (schema : Schema) (chain : List Text) (s : Stop) :
    (schema.searchAlong chain s).1 = schema.typeAlong chain s.type s.owner s.column := by
  fun_induction searchAlong schema chain s with
  | case1 chain s name table key htype hseen =>
    rw [htype, typeAlong_relation]
    exact (if_pos hseen).symm
  | case2 chain s name table key htype hnew e herror =>
    rw [htype, typeAlong_relation, herror]
    exact (if_neg hnew).symm
  | case3 chain s name table key htype hnew target htarget result asked hrest ih =>
    rw [hrest] at ih
    rw [htype, typeAlong_relation, htarget]
    exact ih.trans (if_neg hnew).symm
  | case4 chain s htype =>
    exact (typeAlong_eq_typeOf (fun ⟨name, table, key, h⟩ => htype name table key h) _ _ _).symm

theorem search_fst (schema : Schema) (start : Stop) :
    (schema.search start).1 = schema.typeAt start := searchAlong_fst schema [] start

theorem ends_typeAt (schema : Schema) (start : Stop) :
    Ends schema start (schema.search start).2 (schema.typeAt start) :=
  search_fst schema start ▸ ends_search schema start

variable {asked : List Stop} {result : Except ReferenceError FieldType}

theorem Ends.length_le (h : Ends schema start asked result) :
    asked.length ≤ schema.indexedColumns.length + 1 := by
  cases h with
  | plain h => exact length_le_of_isChain h.follows.left_of_append h.distinct
  | circular h => exact length_le_of_isChain h.follows.left_of_append h.distinct
  | failed h hnew => exact length_le_of_isChain h.follows (nodup_concat h.distinct hnew)

/-- A search with a result has come to a column that is no relation. -/
theorem Ends.exists_last (h : Ends schema start asked result) (hfound : result = .ok found) :
    ∃ last, Walk schema start asked last ∧ ¬ last.type.IsRelation ∧
      schema.typeAt last = .ok found := by
  cases h with
  | plain h hlast => exact ⟨_, h, hlast, hfound⟩
  | circular => cases hfound
  | failed => cases hfound

/-- A walk that starts on an endless path goes along it. -/
theorem Walk.eq_endless {endless : Nat → Stop}
    (hendless : ∀ n, schema.Follows (endless n) (endless (n + 1)))
    (h : Walk schema (endless 0) walked here) :
    walked = (List.range walked.length).map endless ∧ here = endless walked.length := by
  have hpath := eq_map_range_of_isChain hendless h.follows h.starts
  rw [List.length_append, List.length_singleton, List.range_succ, List.map_append,
    List.map_singleton] at hpath
  have hparts := List.append_inj' hpath rfl
  exact ⟨hparts.1, List.singleton_inj.1 hparts.2⟩

/-- A search on an endless path ends at the first link that it has met before. -/
theorem Ends.of_endless {endless : Nat → Stop}
    (hendless : ∀ n, schema.Follows (endless n) (endless (n + 1)))
    (h : Ends schema (endless 0) asked result) :
    result = .error (.circular ((List.range (asked.length + 1)).map fun i => (endless i).link)) ∧
      ((List.range asked.length).map fun i => (endless i).link).Nodup ∧
      ∃ m < asked.length, (endless m).link = (endless asked.length).link := by
  cases h with
  | plain h hlast =>
    rw [(h.eq_endless hendless).2] at hlast
    exact absurd (hendless _).isRelation hlast
  | failed h hnew hlast =>
    rw [(h.eq_endless hendless).2] at hlast
    exact absurd (hendless _) hlast.not_follows
  | circular h hlast hseen =>
    obtain ⟨hwalked, hlast⟩ := h.eq_endless hendless
    have hlinks : asked.map Stop.link =
        (List.range asked.length).map fun i => (endless i).link := by
      rw [hwalked, List.map_map, List.length_map, List.length_range]
      rfl
    refine ⟨?_, hlinks ▸ h.distinct, ?_⟩
    · rw [List.map_append, List.map_singleton, hlinks, hlast, List.range_succ, List.map_append,
        List.map_singleton]
    · rw [hlinks, hlast] at hseen
      obtain ⟨m, hm, hlink⟩ := List.mem_map.1 hseen
      exact ⟨m, List.mem_range.1 hm, hlink⟩

/-- **How the search for a type ends.** It asks what a relation refers to at most once more than
there are columns in the tables that names stand for. If it finds a type, the relations that it
asked about lead from the start to a column that is none and has this type. If relations lead on
and on, it reports the links on the way, which are all different but for the last, and that is one
of those before it. -/
theorem search_ends (schema : Schema) (start : Stop) :
    (schema.search start).1 = schema.typeAt start ∧
    (schema.search start).2.length ≤ schema.indexedColumns.length + 1 ∧
    (∀ found, schema.typeAt start = .ok found → ∃ last,
      ((schema.search start).2 ++ [last]).head? = some start ∧
      ((schema.search start).2 ++ [last]).IsChain schema.Follows ∧
      ¬ last.type.IsRelation ∧ schema.typeAt last = .ok found) ∧
    ∀ endless : Nat → Stop, endless 0 = start →
      (∀ n, schema.Follows (endless n) (endless (n + 1))) → ∃ n,
        schema.typeAt start =
          .error (.circular ((List.range (n + 1)).map fun i => (endless i).link)) ∧
        ((List.range n).map fun i => (endless i).link).Nodup ∧
        ∃ m < n, (endless m).link = (endless n).link := by
  have hends := ends_typeAt schema start
  refine ⟨search_fst schema start, hends.length_le, ?_, ?_⟩
  · intro found hfound
    obtain ⟨last, hwalk, hlast, htype⟩ := hends.exists_last hfound
    exact ⟨last, hwalk.starts, hwalk.follows, hlast, htype⟩
  · rintro endless rfl hendless
    exact ⟨_, hends.of_endless hendless⟩

/-- Two tables whose columns refer to each other. -/
def entangled : Schema :=
  [.table ⟨.text "Order", [⟨.text "bill", .relation .null (.text "Bill") (.text "order"), []⟩]⟩,
    .table ⟨.text "Bill", [⟨.text "order", .relation .null (.text "Order") (.text "bill"), []⟩]⟩]

-- A cycle that is entered from a column outside; the search meets the bound.
example :
    let payment : Stop :=
      ⟨.relation .null (.text "Order") (.text "bill"), .text "Payment", .text "for"⟩
    entangled.typeAt payment =
        .error (.circular ["Payment.for", "Order.bill", "Bill.order", "Order.bill"]) ∧
      (entangled.search payment).2.length = entangled.indexedColumns.length + 1 := by
  decide +kernel

end Schema

end SchemaScribe
