import SchemaScribe.Proofs.Compile.Run

/-!
# Which schemas are compiled

A schema is compiled exactly when each of its items has a file and no two items are in each
other's way (`compile_isOk_iff`). Two items are in each other's way when they are of different
kinds and have one file, or of one kind and name where names may not be taken twice.

The step needs only two views of the progress: the item that was first compiled to a path, and the
names that are taken. `Describes` says what they are after the items built so far.
-/

namespace SchemaScribe

namespace Built

variable {cwd : Path.Location} {options : Options} {schema : Schema}

/-- Neither of two items is in the other's way. -/
structure Compatible (a b : Built cwd options schema) : Prop where
  file : a.file.name = b.file.name → a.kind = b.kind
  name : a.kind = b.kind → a.name.key = b.name.key → options.allowDuplicates.isTruthy = true

/-- Of items that are not in each other's way, those with one file are of one kind. -/
theorem kind_eq_of_compatible {built : List (Built cwd options schema)}
    (h : built.Pairwise Compatible) {a c : Built cwd options schema} (ha : a ∈ built)
    (hc : c ∈ built) (hfile : a.file.name = c.file.name) : a.kind = c.kind := by
  have forward : built.Pairwise fun a c => a.file.name = c.file.name → a.kind = c.kind :=
    h.imp fun hac => hac.file
  have backward : built.Pairwise (flip fun a c => a.file.name = c.file.name → a.kind = c.kind) :=
    h.imp fun hac hfile => (hac.file hfile.symm).symm
  exact forward.forall_of_forall_of_flip (fun _ _ _ => rfl) backward ha hc hfile

end Built

namespace Schema

variable {cwd : Path.Location} {options : Options} {schema : Schema}
  {built : List (Built cwd options schema)} {b : Built cwd options schema} {p q : Progress}

/-- The progress is that after the given items. -/
structure Describes (built : List (Built cwd options schema)) (p : Progress) : Prop where
  owners : ∀ path, p.owners.get? path =
    (built.find? (·.file.name = path)).map fun b => (b.kind, b.name)
  taken : ∀ kind name, ((p.output.bucket kind).path? name).isSome ↔
    ∃ b ∈ built, b.kind = kind ∧ b.name.key = name.key
  compatible : built.Pairwise Built.Compatible

theorem Describes.start : Describes ([] : List (Built cwd options schema)) {} where
  owners _ := rfl
  taken kind name := by cases kind <;> simp [Output.bucket, Bucket.path?, Entries.get?]
  compatible := List.Pairwise.nil

/-- A path is that of items of one kind only when the first item that was compiled to it is of that
kind. -/
theorem Describes.owner_kind_iff (h : Describes built p) {path : Text} {kind : ItemKind} :
    (∀ first, p.owners.get? path = some first → first.1 = kind) ↔
      ∀ a ∈ built, a.file.name = path → a.kind = kind := by
  rw [h.owners]
  constructor
  · intro howner a ha hfile
    have hsome : (built.find? (·.file.name = path)).isSome :=
      List.find?_isSome.2 ⟨a, ha, by simpa using hfile⟩
    obtain ⟨first, hfirst⟩ := Option.isSome_iff_exists.1 hsome
    have hname : first.file.name = path := by simpa using List.find?_some hfirst
    have hkind : first.kind = kind := howner (first.kind, first.name) (by rw [hfirst]; rfl)
    rw [← hkind]
    exact Built.kind_eq_of_compatible h.compatible ha (List.mem_of_find?_eq_some hfirst)
      (hfile.trans hname.symm)
  · intro hall first hfirst
    obtain ⟨a, ha, rfl⟩ := Option.map_eq_some_iff.1 hfirst
    exact hall a (List.mem_of_find?_eq_some ha) (by simpa using List.find?_some ha)

/-- A file can be added exactly when its item is in no earlier one's way. -/
theorem Describes.add_isOk_iff (h : Describes built p) :
    (∃ q notices, p.add options b.kind b.name b.file = (.ok q, notices)) ↔
      ∀ a ∈ built, a.Compatible b := by
  simp only [Progress.add_eq_ok_iff, h.owner_kind_iff, h.taken]
  constructor
  · rintro ⟨-, -, howner, htaken, -, -⟩ a ha
    exact ⟨howner a ha, fun hkind hname => htaken ⟨a, ha, hkind, hname⟩⟩
  · intro hall
    refine ⟨_, _, fun a ha => (hall a ha).file, ?_, rfl, rfl⟩
    rintro ⟨a, ha, hkind, hname⟩
    exact (hall a ha).name hkind hname

/-- **One step**: the progress after a file is added is that after the items and one more. -/
theorem Describes.add {notices : List Notice} (h : Describes built p)
    (hadd : p.add options b.kind b.name b.file = (.ok q, notices)) :
    Describes (built ++ [b]) q := by
  have hall := h.add_isOk_iff.1 ⟨q, notices, hadd⟩
  obtain ⟨-, -, rfl, -⟩ := Progress.add_eq_ok_iff.1 hadd
  refine ⟨fun path => ?_, fun kind name => ?_, ?_⟩
  · rw [List.find?_append]
    by_cases hpath : b.file.name = path
    · subst hpath
      have hlast : [b].find? (·.file.name = b.file.name) = some b := by simp
      have hfirst := h.owners b.file.name
      rw [hlast, Progress.after]
      cases hfind : built.find? (·.file.name = b.file.name) with
      | none =>
        rw [hfind, Option.map_none] at hfirst
        simp only [hfirst, Entries.get?_put_self, Option.none_or, Option.map_some]
      | some first =>
        rw [hfind, Option.map_some] at hfirst
        simp only [hfirst, Option.some_or, Option.map_some]
    · have hlast : [b].find? (·.file.name = path) = none := by simp [hpath]
      rw [hlast, Option.or_none, ← h.owners, Progress.after]
      split
      · exact Entries.get?_put_of_ne _ _ (Ne.symm hpath)
      · rfl
  · by_cases hkind : kind = b.kind
    · subst hkind
      by_cases hname : name.key = b.name.key
      · simp only [Progress.after, Output.bucket_setBucket_self,
          Bucket.path?_withFile_of_key_eq _ _ hname, Option.isSome_some, true_iff]
        exact ⟨b, by simp, rfl, hname.symm⟩
      · simp only [Progress.after, Output.bucket_setBucket_self,
          Bucket.path?_withFile_of_key_ne _ _ hname, h.taken, List.mem_append,
          List.mem_singleton, or_and_right, exists_or, exists_eq_left, Ne.symm hname, and_false,
          or_false]
    · simp only [Progress.after, Output.bucket_setBucket_of_ne _ _ hkind, h.taken,
        List.mem_append, List.mem_singleton, or_and_right, exists_or, exists_eq_left,
        Ne.symm hkind, false_and, or_false]
  · rw [List.pairwise_append]
    exact ⟨h.compatible, List.pairwise_singleton _ _, fun a ha c hc =>
      List.mem_singleton.1 hc ▸ hall a ha⟩

/-- Items that have files and are not in each other's way are compiled, one after the other. -/
theorem Describes.exists_run (h : Describes built p) {more : List (Built cwd options schema)}
    (hmore : (built ++ more).Pairwise Built.Compatible) :
    ∃ q notices, Progress.run cwd options schema p (more.map Built.item) = (.ok q, notices) := by
  induction more generalizing built p with
  | nil => exact ⟨p, [], rfl⟩
  | cons b rest ih =>
    have hall : ∀ a ∈ built, a.Compatible b := fun a ha =>
      (List.pairwise_append.1 hmore).2.2 a ha b List.mem_cons_self
    obtain ⟨next, first, hadd⟩ := h.add_isOk_iff.2 hall
    have hstep := step_eq_ok_iff.2 ⟨b, rfl, first, hadd, rfl⟩
    obtain ⟨q, notices, hrun⟩ := ih (h.add hadd) (by simpa using hmore)
    refine ⟨q, .generated b.kind b.name b.file.name :: first ++ notices, ?_⟩
    rw [List.map_cons, Progress.run, hstep]
    simp only [hrun]

/-- **Which schemas are compiled**: those of which every name can be found, every item has a file
and no item is in another's way. -/
theorem compile_isOk_iff :
    (∃ output, (schema.compile cwd options).1 = .ok output) ↔
      schema.checkNames = .ok () ∧
        ∃ built : List (Built cwd options schema), built.map Built.item = schema ∧
          built.Pairwise Built.Compatible := by
  constructor
  · rintro ⟨output, h⟩
    obtain ⟨hnames, p, told, hrun, -, -⟩ := compile_eq_ok_iff.1 (Prod.ext h rfl)
    obtain ⟨built, hitems, hbuilt⟩ := run_induction (fun built _ p => Describes built p)
      (fun _ h hadd => h.add hadd) Describes.start hrun
    exact ⟨hnames, built, hitems, hbuilt.compatible⟩
  · rintro ⟨hnames, built, hitems, hbuilt⟩
    obtain ⟨p, told, hrun⟩ := Describes.start.exists_run hbuilt
    rw [hitems] at hrun
    exact ⟨p.output, congrArg Prod.fst (compile_eq_ok_iff.2 ⟨hnames, p, told, hrun, rfl, rfl⟩)⟩

end Schema

end SchemaScribe
