import SchemaScribe.Proofs.Compile.Acceptance
import SchemaScribe.Proofs.Compile.Agreement

/-!
# Why a schema is not compiled

The error of a compilation is that of the first item that fails (`compile_failsFirst`). Whether an
item fails is said in terms of the schema alone (`FailsAt`): it is no item, its file cannot be
built, an earlier item of the other kind has its path, or an earlier one of its kind has its name.
The items behind the first that fails matter only by what the names of the schema stand for.

`Describes` links the progress to the items before; what is left is to read off its two views at
which position the item in the way stands.
-/

namespace SchemaScribe

namespace Schema

variable {cwd : Path.Location} {options : Options} {schema s t : Schema} {i j k : Nat}

/-! ## Items that fail -/

/-- The item at a position is of the kind and has the name, and by these the path. -/
structure PlacedAt (options : Options) (schema : Schema) (i : Nat) (kind : ItemKind) (name : Name)
    (path : Text) : Prop where
  exists_item : ∃ item, schema[i]? = some item ∧ item.kind? = some kind ∧ item.name? = some name
  fileName_eq : options.fileName kind name = .ok path

/-- The earliest item of the schema with the path is that at the position. -/
structure FirstAt (options : Options) (schema : Schema) (i : Nat) (kind : ItemKind) (name : Name)
    (path : Text) : Prop extends PlacedAt options schema i kind name path where
  not_before : ∀ j < i, ∀ kind name, ¬ PlacedAt options schema j kind name path

/-- An item before the position is of another kind and has the path. -/
def OtherKindBefore (options : Options) (schema : Schema) (k : Nat) (kind : ItemKind)
    (path : Text) : Prop :=
  ∃ j < k, ∃ other name, PlacedAt options schema j other name path ∧ other ≠ kind

/-- The item at a position fails with the error, if all items before it are compiled. That it is no
item or cannot be built comes before a path that an item of another kind has, and this before a
name that an item of the same kind has. -/
inductive FailsAt (cwd : Path.Location) (options : Options) (schema : Schema) (k : Nat) :
    CompileError → Prop
  | notAnItem {x : Json} (item : schema[k]? = some (.other x)) :
      FailsAt cwd options schema k (.notAnItem x)
  | table {t : Table} {e : CompileError} (item : schema[k]? = some (.table t))
      (file : schema.tableFile cwd options t = .error e) : FailsAt cwd options schema k e
  | enumeration {m : Enumeration} {e : CompileError} (item : schema[k]? = some (.enumeration m))
      (file : enumerationFile options m = .error e) : FailsAt cwd options schema k e
  | collision {b : Built cwd options schema} {i : Nat} {firstKind : ItemKind} {firstName : Name}
      (item : schema[k]? = some b.item)
      (other : OtherKindBefore options schema k b.kind b.file.name)
      (first : FirstAt options schema i firstKind firstName b.file.name) :
      FailsAt cwd options schema k (.collision b.file.name firstKind firstName b.kind b.name)
  | duplicate {b : Built cwd options schema} (item : schema[k]? = some b.item)
      (noOther : ¬ OtherKindBefore options schema k b.kind b.file.name)
      (once : options.allowDuplicates.isTruthy = false)
      (named : ∃ j < k, schema[j]?.bind Item.label? = some (b.kind, b.name.key)) :
      FailsAt cwd options schema k (.duplicate b.kind b.name)

/-- The item at the position fails with the error, and none before it fails. -/
structure FailsFirst (cwd : Path.Location) (options : Options) (schema : Schema) (k : Nat)
    (e : CompileError) : Prop where
  fails : FailsAt cwd options schema k e
  not_before : ∀ j < k, ∀ e', ¬ FailsAt cwd options schema j e'

/-! ## An item fails in one way only -/

theorem PlacedAt.unique {kind kind' : ItemKind} {name name' : Name} {path path' : Text}
    (h : PlacedAt options schema i kind name path)
    (h' : PlacedAt options schema i kind' name' path') : kind = kind' ∧ name = name' := by
  obtain ⟨item, hitem, hkind, hname⟩ := h.exists_item
  obtain ⟨item', hitem', hkind', hname'⟩ := h'.exists_item
  obtain rfl := Option.some.inj (hitem.symm.trans hitem')
  exact ⟨Option.some.inj (hkind.symm.trans hkind'), Option.some.inj (hname.symm.trans hname')⟩

theorem FirstAt.le_of_placedAt {kind kind' : ItemKind} {name name' : Name} {path : Text}
    (h : FirstAt options schema i kind name path)
    (h' : PlacedAt options schema j kind' name' path) : i ≤ j :=
  Nat.le_of_not_lt fun hlt => h.not_before j hlt _ _ h'

theorem FirstAt.unique {kind kind' : ItemKind} {name name' : Name} {path : Text}
    (h : FirstAt options schema i kind name path)
    (h' : FirstAt options schema j kind' name' path) : kind = kind' ∧ name = name' := by
  obtain rfl := Nat.le_antisymm (h.le_of_placedAt h'.toPlacedAt) (h'.le_of_placedAt h.toPlacedAt)
  exact h.toPlacedAt.unique h'.toPlacedAt

/-- An item that fails is not built, or its file is in an earlier one's way. -/
theorem failsAt_iff {e : CompileError} :
    FailsAt cwd options schema k e ↔ ∃ item, schema[k]? = some item ∧
      (schema.build cwd options item = .error e ∨
        ∃ b : Built cwd options schema, b.item = item ∧
          ((OtherKindBefore options schema k b.kind b.file.name ∧
              ∃ i firstKind firstName, FirstAt options schema i firstKind firstName b.file.name ∧
                e = .collision b.file.name firstKind firstName b.kind b.name) ∨
            (¬ OtherKindBefore options schema k b.kind b.file.name ∧
              options.allowDuplicates.isTruthy = false ∧
              (∃ j < k, schema[j]?.bind Item.label? = some (b.kind, b.name.key)) ∧
              e = .duplicate b.kind b.name))) := by
  constructor
  · intro h
    cases h with
    | notAnItem hitem => exact ⟨_, hitem, .inl rfl⟩
    | table hitem hfile => exact ⟨_, hitem, .inl (build_eq_error_iff.2 hfile)⟩
    | enumeration hitem hfile => exact ⟨_, hitem, .inl (build_eq_error_iff.2 hfile)⟩
    | collision hitem hother hfirst =>
      exact ⟨_, hitem, .inr ⟨_, rfl, .inl ⟨hother, _, _, _, hfirst, rfl⟩⟩⟩
    | duplicate hitem hnoOther honce hnamed =>
      exact ⟨_, hitem, .inr ⟨_, rfl, .inr ⟨hnoOther, honce, hnamed, rfl⟩⟩⟩
  · rintro ⟨item, hitem, hbuild | ⟨b, rfl, hcollision | hduplicate⟩⟩
    · have hfile := build_eq_error_iff.1 hbuild
      cases item with
      | other x =>
        obtain rfl := hfile
        exact .notAnItem hitem
      | table t => exact .table hitem hfile
      | enumeration m => exact .enumeration hitem hfile
    · obtain ⟨hother, i, firstKind, firstName, hfirst, rfl⟩ := hcollision
      exact .collision hitem hother hfirst
    · obtain ⟨hnoOther, honce, hnamed, rfl⟩ := hduplicate
      exact .duplicate hitem hnoOther honce hnamed

theorem FailsAt.unique {e e' : CompileError} (h : FailsAt cwd options schema k e)
    (h' : FailsAt cwd options schema k e') : e = e' := by
  obtain ⟨item, hitem, h⟩ := failsAt_iff.1 h
  obtain ⟨item', hitem', h'⟩ := failsAt_iff.1 h'
  obtain rfl := Option.some.inj (hitem.symm.trans hitem')
  rcases h with hbuild | ⟨b, rfl, h⟩
  · rcases h' with hbuild' | ⟨b, rfl, -⟩
    · exact Except.error.inj (hbuild.symm.trans hbuild')
    · simp [b.build_eq] at hbuild
  · rcases h' with hbuild' | ⟨c, hc, h'⟩
    · simp [b.build_eq] at hbuild'
    · obtain rfl := Built.eq_of_item_eq hc
      rcases h with ⟨hother, _, _, _, hfirst, rfl⟩ | ⟨hnoOther, -, -, rfl⟩
      · rcases h' with ⟨-, _, _, _, hfirst', rfl⟩ | ⟨hnoOther, -, -, rfl⟩
        · obtain ⟨rfl, rfl⟩ := hfirst.unique hfirst'
          rfl
        · exact absurd hother hnoOther
      · rcases h' with ⟨hother, -⟩ | ⟨-, -, -, rfl⟩
        · exact absurd hother hnoOther
        · rfl

theorem FailsFirst.unique {e e' : CompileError} (h : FailsFirst cwd options schema k e)
    (h' : FailsFirst cwd options schema j e') : e = e' := by
  have hle : k ≤ j := Nat.le_of_not_lt fun hlt => h.not_before j hlt _ h'.fails
  have hge : j ≤ k := Nat.le_of_not_lt fun hlt => h'.not_before k hlt _ h.fails
  obtain rfl := Nat.le_antisymm hle hge
  exact h.fails.unique h'.fails

/-! ## Items behind the first that fails -/

theorem PlacedAt.of_getElem?_eq {kind : ItemKind} {name : Name} {path : Text}
    (hget : s[i]? = t[i]?) (h : PlacedAt options s i kind name path) :
    PlacedAt options t i kind name path where
  exists_item := hget ▸ h.exists_item
  fileName_eq := h.fileName_eq

theorem otherKindBefore_iff {kind : ItemKind} {path : Text} (hshared : ∀ j < k, s[j]? = t[j]?) :
    OtherKindBefore options s k kind path ↔ OtherKindBefore options t k kind path := by
  constructor
  · rintro ⟨j, hj, other, name, hplaced, hne⟩
    exact ⟨j, hj, other, name, hplaced.of_getElem?_eq (hshared j hj), hne⟩
  · rintro ⟨j, hj, other, name, hplaced, hne⟩
    exact ⟨j, hj, other, name, hplaced.of_getElem?_eq (hshared j hj).symm, hne⟩

/-- Whether an item fails does not depend on those behind it, but for what names stand for. -/
theorem FailsAt.transport {e : CompileError} (hsame : s.SameReferences t)
    (hshared : ∀ j ≤ k, s[j]? = t[j]?) (h : FailsAt cwd options s k e) :
    FailsAt cwd options t k e := by
  have hbefore : ∀ j < k, s[j]? = t[j]? := fun j hj => hshared j (Nat.le_of_lt hj)
  have hhere : s[k]? = t[k]? := hshared k (Nat.le_refl k)
  cases h with
  | notAnItem hitem => exact .notAnItem (hhere ▸ hitem)
  | table hitem hfile => exact .table (hhere ▸ hitem) (hsame.tableFile_eq _ ▸ hfile)
  | enumeration hitem hfile => exact .enumeration (hhere ▸ hitem) hfile
  | @collision b i firstKind firstName hitem hother hfirst =>
    have hother' := (otherKindBefore_iff hbefore).1 hother
    obtain ⟨j, hj, _, _, hplaced, -⟩ := hother
    have hij : i ≤ j := hfirst.le_of_placedAt hplaced
    have hi : i < k := Nat.lt_of_le_of_lt hij hj
    have hfirst' : FirstAt options t i firstKind firstName b.file.name :=
      ⟨hfirst.toPlacedAt.of_getElem?_eq (hbefore i hi), fun l hl kind name hl' =>
        hfirst.not_before l hl kind name
          (hl'.of_getElem?_eq (hbefore l (Nat.lt_trans hl hi)).symm)⟩
    exact .collision (b := b.transport hsame) (hhere ▸ hitem) hother' hfirst'
  | @duplicate b hitem hnoOther honce hnamed =>
    obtain ⟨j, hj, hlabel⟩ := hnamed
    exact .duplicate (b := b.transport hsame) (hhere ▸ hitem)
      (fun hother => hnoOther ((otherKindBefore_iff hbefore).2 hother)) honce
      ⟨j, hj, hbefore j hj ▸ hlabel⟩

theorem FailsFirst.transport {e : CompileError} (hsame : s.SameReferences t)
    (hshared : ∀ j ≤ k, s[j]? = t[j]?) (h : FailsFirst cwd options s k e) :
    FailsFirst cwd options t k e where
  fails := h.fails.transport hsame hshared
  not_before j hj e' hfails := h.not_before j hj e' <|
    hfails.transport hsame.symm fun l hl => (hshared l (Nat.le_trans hl (Nat.le_of_lt hj))).symm

/-! ## The items before the first that fails -/

section Before

variable {built : List (Built cwd options schema)} {rest : List Item}

theorem getElem?_of_built (hitems : schema = built.map Built.item ++ rest)
    (hj : j < built.length) : schema[j]? = some built[j].item := by
  have hget : (built.map Built.item ++ rest)[j]? = some built[j].item := by
    rw [List.getElem?_append_left (by simpa using hj), List.getElem?_map,
      List.getElem?_eq_getElem hj, Option.map_some]
  rwa [← hitems] at hget

theorem placedAt_iff_of_built (hitems : schema = built.map Built.item ++ rest)
    (hj : j < built.length) {kind : ItemKind} {name : Name} {path : Text} :
    PlacedAt options schema j kind name path ↔
      built[j].kind = kind ∧ built[j].name = name ∧ built[j].file.name = path := by
  have hget := getElem?_of_built hitems hj
  constructor
  · rintro ⟨⟨item, hitem, hkind, hname⟩, hpath⟩
    obtain rfl := Option.some.inj (hget.symm.trans hitem)
    obtain rfl := Option.some.inj (built[j].kind?_item.symm.trans hkind)
    obtain rfl := Option.some.inj (built[j].name?_item.symm.trans hname)
    exact ⟨rfl, rfl, Except.ok.inj (built[j].fileName_eq.symm.trans hpath)⟩
  · rintro ⟨rfl, rfl, rfl⟩
    exact ⟨⟨_, hget, built[j].kind?_item, built[j].name?_item⟩, built[j].fileName_eq⟩

/-- Items that are built and not in each other's way do not fail. -/
theorem not_failsAt_of_built (hitems : schema = built.map Built.item ++ rest)
    (h : built.Pairwise Built.Compatible) (hj : j < built.length) (e : CompileError) :
    ¬ FailsAt cwd options schema j e := by
  intro hfails
  have hget := getElem?_of_built hitems hj
  obtain ⟨item, hitem, hfails⟩ := failsAt_iff.1 hfails
  obtain rfl := Option.some.inj (hget.symm.trans hitem)
  have hcompatible : ∀ i (hi : i < j), built[i].Compatible built[j] := fun i hi =>
    List.pairwise_iff_getElem.1 h i j (Nat.lt_trans hi hj) hj hi
  rcases hfails with hbuild | ⟨b, hb, hfails⟩
  · simp [built[j].build_eq] at hbuild
  obtain rfl := Built.eq_of_item_eq hb
  rcases hfails with ⟨⟨i, hi, kind, name, hplaced, hne⟩, -⟩ | ⟨-, honce, ⟨i, hi, hlabel⟩, -⟩
  · obtain ⟨rfl, -, hfile⟩ := (placedAt_iff_of_built hitems (Nat.lt_trans hi hj)).1 hplaced
    exact hne ((hcompatible i hi).file hfile)
  · rw [getElem?_of_built hitems (Nat.lt_trans hi hj), Option.bind_some,
      Built.label?_item] at hlabel
    obtain ⟨hkind, hname⟩ := Prod.mk.inj (Option.some.inj hlabel)
    simpa [honce] using (hcompatible i hi).name hkind hname

/-- A step that fails makes the item at its place fail. -/
theorem Describes.failsAt {p : Progress} (h : Describes built p) {item : Item} {e : CompileError}
    (hitems : schema = built.map Built.item ++ item :: rest)
    (hstep : (p.step cwd options schema item).1 = .error e) :
    FailsAt cwd options schema built.length e := by
  have hitem : schema[built.length]? = some item := by
    have hget : (built.map Built.item ++ item :: rest)[built.length]? = some item := by
      rw [List.getElem?_append_right (by simp), List.length_map, Nat.sub_self,
        List.getElem?_cons_zero]
    rwa [← hitems] at hget
  refine failsAt_iff.2 ⟨item, hitem, ?_⟩
  rcases step_eq_error_iff.1 hstep with hbuild | ⟨b, rfl, hadd⟩
  · exact .inl hbuild
  refine .inr ⟨b, rfl, ?_⟩
  rcases Progress.add_eq_error_iff.1 hadd with
    ⟨first, howner, hne, rfl⟩ | ⟨howner, htaken, honce, rfl⟩
  · rw [h.owners] at howner
    obtain ⟨a, hfind, rfl⟩ := Option.map_eq_some_iff.1 howner
    obtain ⟨hpath, i, hi, rfl, hfirst⟩ := List.find?_eq_some_iff_getElem.1 hfind
    have hplaced : PlacedAt options schema i built[i].kind built[i].name b.file.name :=
      (placedAt_iff_of_built hitems hi).2 ⟨rfl, rfl, by simpa using hpath⟩
    refine .inl ⟨⟨i, hi, _, _, hplaced, hne⟩, i, _, _, ⟨hplaced, ?_⟩, rfl⟩
    intro j hj kind name hj'
    obtain ⟨-, -, hfile⟩ := (placedAt_iff_of_built hitems (Nat.lt_trans hj hi)).1 hj'
    simpa [hfile] using hfirst j hj
  · refine .inr ⟨?_, honce, ?_, rfl⟩
    · rintro ⟨j, hj, kind, name, hplaced, hne⟩
      obtain ⟨rfl, -, hfile⟩ := (placedAt_iff_of_built hitems hj).1 hplaced
      exact hne (h.owner_kind_iff.1 howner _ (List.getElem_mem hj) hfile)
    · obtain ⟨a, ha, hkind, hname⟩ := (h.taken _ _).1 htaken
      obtain ⟨j, hj, rfl⟩ := List.getElem_of_mem ha
      refine ⟨j, hj, ?_⟩
      rw [getElem?_of_built hitems hj, Option.bind_some, Built.label?_item, hkind, hname]

end Before

/-! ## The outcome -/

/-- Where a compilation fails, it is an item that fails, and all before it are compiled. -/
theorem exists_failsFirst {e : CompileError} (hnames : schema.checkNames = .ok ())
    (h : (schema.compile cwd options).1 = .error e) :
    ∃ k, FailsFirst cwd options schema k e := by
  rcases compile_eq_error_iff.1 h with ⟨reference, herror, -⟩ | ⟨-, hrun⟩
  · simp [hnames] at herror
  obtain ⟨built, item, rest, p, hitems, hdescribes, hstep⟩ := run_error_induction
    (fun built p => Describes built p) (fun h hadd => h.add hadd) Describes.start hrun
  exact ⟨built.length, hdescribes.failsAt hitems hstep, fun j hj e' =>
    not_failsAt_of_built hitems hdescribes.compatible hj e'⟩

/-- No item of a schema that is compiled fails. -/
theorem not_failsAt_of_compile {output : Output} (h : (schema.compile cwd options).1 = .ok output)
    (k : Nat) (e : CompileError) : ¬ FailsAt cwd options schema k e := by
  intro hfails
  obtain ⟨-, built, hitems, hcompatible⟩ := compile_isOk_iff.1 ⟨output, h⟩
  have hall : schema = built.map Built.item ++ [] := by rw [hitems, List.append_nil]
  have hk : k < built.length := by
    obtain ⟨item, hitem, -⟩ := failsAt_iff.1 hfails
    have hlt := (List.getElem?_eq_some_iff.1 hitem).1
    rwa [← hitems, List.length_map] at hlt
  exact not_failsAt_of_built hall hcompatible hk e hfails

theorem compile_eq_error_iff_failsFirst {e : CompileError} (hnames : schema.checkNames = .ok ()) :
    (schema.compile cwd options).1 = .error e ↔ ∃ k, FailsFirst cwd options schema k e := by
  refine ⟨exists_failsFirst hnames, ?_⟩
  rintro ⟨k, hk⟩
  cases hresult : (schema.compile cwd options).1 with
  | ok output => exact absurd hk.fails (not_failsAt_of_compile hresult k e)
  | error e' =>
    obtain ⟨j, hj⟩ := exists_failsFirst hnames hresult
    rw [hj.unique hk]

/-- **The first item that fails decides.** Where the names of the items cannot all be looked for,
that is the error. Otherwise a schema is compiled when no item fails, and else the error is that of
the first item that does; and it stays the same with other items behind, so long as every name
stands for the same. -/
theorem compile_failsFirst (cwd : Path.Location) (options : Options) (schema : Schema) :
    (∀ e, schema.checkNames = .error e → (schema.compile cwd options).1 = .error (.reference e)) ∧
    (schema.checkNames = .ok () →
      ((∃ output, (schema.compile cwd options).1 = .ok output) ↔
        ∀ k e, ¬ FailsAt cwd options schema k e) ∧
      ∀ e, (schema.compile cwd options).1 = .error e ↔
        ∃ k, FailsFirst cwd options schema k e) ∧
    ∀ k e, FailsFirst cwd options schema k e → ∀ other : Schema,
      other.take (k + 1) = schema.take (k + 1) → other.SameReferences schema →
      other.checkNames = .ok () → (other.compile cwd options).1 = .error e := by
  refine ⟨fun e he => compile_eq_error_iff.2 (.inl ⟨e, he, rfl⟩), fun hnames => ⟨⟨?_, ?_⟩,
    fun e => compile_eq_error_iff_failsFirst hnames⟩, ?_⟩
  · rintro ⟨output, h⟩
    exact not_failsAt_of_compile h
  · intro hall
    by_contra hnot
    obtain ⟨e, he⟩ := not_ok_iff.1 hnot
    obtain ⟨k, hk⟩ := exists_failsFirst hnames he
    exact hall k e hk.fails
  · intro k e hk other htake hsame hnames
    refine (compile_eq_error_iff_failsFirst hnames).2 ⟨k, hk.transport hsame.symm fun j hj => ?_⟩
    have hlt : j < k + 1 := Nat.lt_succ_of_le hj
    rw [← List.getElem?_take_of_lt hlt, ← htake, List.getElem?_take_of_lt hlt]

-- Two tables have one path; the earlier of them is named, though the later has the very same name.
example : (Schema.compile [] { outputRoot := .text "/o", enumFolder := .text "table" }
    [.table ⟨.text "/o/table/A", []⟩, .table ⟨.text "A", []⟩,
      .enumeration ⟨.text "A", .list []⟩]).1 =
    .error (.collision "/o/table/A.ts" .table (.text "/o/table/A") .enumeration (.text "A")) := by
  decide +kernel

end Schema

end SchemaScribe
