import Mathlib.Data.List.Perm.Basic
import SchemaScribe.Proofs.Compile.Agreement
import SchemaScribe.Proofs.Compile.ForeignKeys

/-!
# The order of items

Where names may not be taken twice, the order of the items of a schema decides nothing but the order
of the output (`compile_perm`). All items of a schema that is compiled are found by different names,
so that references resolve alike in every order and the same file is built from each item; and
whether two items are in each other's way does not depend on which of them comes first.
-/

namespace SchemaScribe

/-- The output holds the given files of the items, each kind in the order of the items, and an entry
for each in the same order. -/
structure Output.Arranges (schema : Schema) (file : Item → ModuleFile) (output : Output) :
    Prop where
  files : ∀ kind, (output.bucket kind).files =
    (schema.filter (·.kind? = some kind)).map file
  paths : ∀ kind, (output.bucket kind).paths =
    (schema.filter (·.kind? = some kind)).filterMap fun item =>
      item.name?.map fun name => (name.key, ⟨name, (file item).name⟩)

namespace Built

variable {cwd : Path.Location} {options : Options} {s t schema : Schema}

/-- Where no item is in another's way and names may not be taken twice, no two items of a kind have
one name. -/
theorem nodup_labels {built : List (Built cwd options schema)} (h : built.Pairwise Compatible)
    (hallow : options.allowDuplicates.isTruthy = false) :
    ((built.map item).filterMap Item.label?).Nodup := by
  have hlabels : (built.map item).filterMap Item.label? = built.map fun b => (b.kind, b.key) := by
    rw [List.filterMap_map, ← List.filterMap_eq_map]
    exact List.filterMap_congr fun b _ => b.label?_item
  rw [hlabels, List.Nodup, List.pairwise_map]
  refine h.imp fun {a b} hab heq => ?_
  obtain ⟨hkind, hkey⟩ := Prod.mk.inj heq
  simpa [hallow] using hab.name hkind hkey

theorem Compatible.symm {a b : Built cwd options schema} (h : a.Compatible b) : b.Compatible a where
  file hfile := (h.file hfile.symm).symm
  name hkind hname := h.name hkind.symm hname.symm

theorem compatible_transport_iff (h : s.SameReferences t) {a b : Built cwd options s} :
    (a.transport h).Compatible (b.transport h) ↔ a.Compatible b :=
  ⟨fun hab => ⟨hab.file, hab.name⟩, fun hab => ⟨hab.file, hab.name⟩⟩

/-- What is built from the items of a schema can be put into the order of another. -/
theorem exists_perm (h : s.SameReferences t) (hperm : s.Perm t)
    {built : List (Built cwd options s)} (hitems : built.map item = s) :
    ∃ other : List (Built cwd options t), other.map item = t ∧
      other.Perm (built.map (transport h)) := by
  have hmap : (built.map (transport h)).map item = s := by
    rw [List.map_map]
    exact hitems
  have ht : t.Perm ((built.map (transport h)).map item) := by
    rw [hmap]
    exact hperm.symm
  have hcomp := congrFun (congrFun (List.eq_map_comp_perm item) t) (built.map (transport h))
  obtain ⟨other, hother, hpermOther⟩ := hcomp.mpr ht
  exact ⟨other, hother.symm, hpermOther⟩

end Built

namespace Schema

variable {cwd : Path.Location} {options : Options} {s t schema : Schema}

/-- The file that is built from an item. -/
def fileOf (cwd : Path.Location) (options : Options) (schema : Schema) (item : Item) : ModuleFile :=
  match schema.build cwd options item with
  | .ok (_, _, file) => file
  | .error _ => default

theorem fileOf_item (b : Built cwd options schema) : schema.fileOf cwd options b.item = b.file := by
  rw [fileOf, b.build_eq]

/-- Where no file and no entry is lost, the output is arranged as the items are. -/
theorem Keeps.arranges {built : List (Built cwd options schema)} {output : Output}
    (h : Keeps built output) : output.Arranges (built.map Built.item)
      (schema.fileOf cwd options) where
  files kind := by
    rw [h.files, List.filter_map, List.map_map]
    unfold Built.ofKind
    simp only [Function.comp_def, Built.kind?_item, fileOf_item, Option.some.injEq]
  paths kind := by
    rw [h.paths, List.filter_map, List.filterMap_map]
    unfold Built.ofKind
    simp only [Function.comp_def, Built.kind?_item, Built.name?_item, fileOf_item,
      Option.some.injEq, Option.map_some, List.filterMap_eq_map']
    rfl

/-- References resolve alike in every order of the items of a schema that is compiled. -/
theorem sameReferences_of_compile (hperm : s.Perm t)
    (hallow : options.allowDuplicates.isTruthy = false) {output : Output}
    (h : (s.compile cwd options).1 = .ok output) : s.SameReferences t := by
  obtain ⟨-, built, hitems, hcompatible⟩ := compile_isOk_iff.1 ⟨output, h⟩
  have hlabels := Built.nodup_labels hcompatible hallow
  rw [hitems] at hlabels
  exact sameReferences_of_perm hperm hlabels

/-- A schema that is compiled is compiled in every order of its items. -/
theorem exists_compile_of_perm (hperm : s.Perm t)
    (hallow : options.allowDuplicates.isTruthy = false)
    (h : ∃ output, (s.compile cwd options).1 = .ok output) :
    ∃ output, (t.compile cwd options).1 = .ok output := by
  obtain ⟨output, houtput⟩ := h
  have hsame := sameReferences_of_compile hperm hallow houtput
  obtain ⟨hnames, built, hitems, hcompatible⟩ := compile_isOk_iff.1 ⟨output, houtput⟩
  obtain ⟨other, hother, hothers⟩ := Built.exists_perm hsame hperm hitems
  refine compile_isOk_iff.2 ⟨?_, other, hother, ?_⟩
  · rw [checkNames_eq_ok_iff] at hnames ⊢
    exact fun name hname => hnames name ((hperm.filterMap _).mem_iff.2 hname)
  · rw [hothers.pairwise_iff fun hab => hab.symm, List.pairwise_map]
    exact hcompatible.imp fun hab => (Built.compatible_transport_iff hsame).2 hab

/-- **Order decides nothing but order**: where names may not be taken twice, two orders of the items
of a schema are both compiled or both not; and from each item the same file is built in both, with
the files and the entries of each kind in the order of its own items. -/
theorem compile_perm (hperm : s.Perm t) (hallow : options.allowDuplicates.isTruthy = false) :
    ((∃ output, (s.compile cwd options).1 = .ok output) ↔
      ∃ output, (t.compile cwd options).1 = .ok output) ∧
    ∀ {a b}, (s.compile cwd options).1 = .ok a → (t.compile cwd options).1 = .ok b →
      ∃ file : Item → ModuleFile,
        (∀ item ∈ s, ∃ kind name, s.build cwd options item = .ok (kind, name, file item) ∧
          t.build cwd options item = .ok (kind, name, file item)) ∧
        a.Arranges s file ∧ b.Arranges t file := by
  refine ⟨⟨exists_compile_of_perm hperm hallow, exists_compile_of_perm hperm.symm hallow⟩, ?_⟩
  intro a b ha hb
  have hsame := sameReferences_of_compile hperm hallow ha
  obtain ⟨builtA, hitemsA, -, hkeepsA⟩ := exists_keeps ha hallow
  obtain ⟨builtB, hitemsB, -, hkeepsB⟩ := exists_keeps hb hallow
  have hfile : t.fileOf cwd options = s.fileOf cwd options := by
    funext item
    rw [fileOf, fileOf, hsame.build_eq]
  refine ⟨s.fileOf cwd options, ?_, ?_, ?_⟩
  · intro item hitem
    rw [← hitemsA] at hitem
    obtain ⟨built, -, rfl⟩ := List.mem_map.1 hitem
    refine ⟨built.kind, built.name, ?_, ?_⟩
    · rw [fileOf_item]
      exact built.build_eq
    · rw [fileOf_item, ← hsame.build_eq]
      exact built.build_eq
  · have harranges := hkeepsA.arranges
    rwa [hitemsA] at harranges
  · have harranges := hkeepsB.arranges
    rwa [hitemsB, hfile] at harranges

theorem compile_perm_chained :
    chained.Perm chained.reverse ∧
      Json.isTruthy (Options.allowDuplicates { style := .plain }) = false ∧ ∃ a b,
      (chained.compile [] { style := .plain }).1 = .ok a ∧
      (Schema.compile [] { style := .plain } chained.reverse).1 = .ok b ∧
      ∃ file : Item → ModuleFile,
        (∀ item ∈ chained, ∃ kind name,
          chained.build [] { style := .plain } item = .ok (kind, name, file item) ∧
          Schema.build [] { style := .plain } chained.reverse item =
            .ok (kind, name, file item)) ∧
        a.Arranges chained file ∧ b.Arranges chained.reverse file := by
  have hperm : chained.Perm chained.reverse := (List.reverse_perm _).symm
  have hok : (chained.compile [] { style := .plain }).1.isOk = true := by decide +kernel
  obtain ⟨a, ha⟩ := isOk_iff.1 hok
  obtain ⟨hiff, hfiles⟩ := @compile_perm [] { style := .plain } _ _ hperm rfl
  obtain ⟨b, hb⟩ := hiff.1 ⟨a, ha⟩
  exact ⟨hperm, rfl, a, b, ha, hb, hfiles ha hb⟩

end Schema

end SchemaScribe
