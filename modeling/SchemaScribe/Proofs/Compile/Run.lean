import SchemaScribe.Proofs.Compile.Built

/-!
# Runs of a compilation

What one step of a compilation does to its progress, and when it can be done
(`Progress.add_eq_ok_iff`); and what is left of that after a whole run. `run_induction` is the
only induction on runs: an assertion about the progress and the items built so far that each step
keeps holds at the end of the run, with all items built.
-/

namespace SchemaScribe

namespace Output

@[simp] theorem bucket_setBucket_self (output : Output) (bucket : Bucket) (kind : ItemKind) :
    (output.setBucket bucket kind).bucket kind = bucket := by
  cases kind <;> rfl

theorem bucket_setBucket_of_ne (output : Output) (bucket : Bucket) {kind other : ItemKind}
    (h : other ≠ kind) : (output.setBucket bucket kind).bucket other = output.bucket other := by
  cases kind <;> cases other <;> first | rfl | exact absurd rfl h

end Output

namespace Bucket

/-- The bucket without the file of an earlier item of the name. -/
def without (bucket : Bucket) (name : Name) : Bucket :=
  match bucket.path? name with
  | none => bucket
  | some path => { bucket with files := bucket.files.filter (·.name ≠ path) }

/-- The bucket with the file of an item, in the place of that of an earlier item of the name. -/
def withFile (bucket : Bucket) (name : Name) (file : ModuleFile) : Bucket :=
  (bucket.without name).extend [file] [⟨name, file.name⟩]

theorem paths_without (bucket : Bucket) (name : Name) :
    (bucket.without name).paths = bucket.paths := by
  unfold without
  split <;> rfl

theorem files_withFile (bucket : Bucket) (name : Name) (file : ModuleFile) :
    (bucket.withFile name file).files = (bucket.without name).files ++ [file] := rfl

theorem paths_withFile (bucket : Bucket) (name : Name) (file : ModuleFile) :
    (bucket.withFile name file).paths = (bucket.putPath ⟨name, file.name⟩).paths := by
  have h := bucket.paths_without name
  simp only [withFile, extend, List.foldl_cons, List.foldl_nil, putPath, h]

/-- A name that is not taken gets its file and its entry at the end. -/
theorem withFile_of_path?_eq_none {bucket : Bucket} {name : Name} (file : ModuleFile)
    (h : bucket.path? name = none) : bucket.withFile name file =
      ⟨bucket.files ++ [file], bucket.paths ++ [(name.key, ⟨name, file.name⟩)]⟩ := by
  have hget : bucket.paths.get? name.key = none := Option.map_eq_none_iff.1 h
  simp only [withFile, without, h, extend, List.foldl_cons, List.foldl_nil, putPath, hget,
    Option.map_none, Option.getD_none, Entries.put_eq_append _ hget]

theorem path?_withFile_of_key_eq (bucket : Bucket) {name other : Name} (file : ModuleFile)
    (h : other.key = name.key) : (bucket.withFile name file).path? other = some file.name := by
  rw [path?, paths_withFile, putPath, h, Entries.get?_put_self, Option.map_some]

theorem path?_withFile_of_key_ne (bucket : Bucket) {name other : Name} (file : ModuleFile)
    (h : other.key ≠ name.key) :
    (bucket.withFile name file).path? other = bucket.path? other := by
  rw [path?, paths_withFile, putPath, Entries.get?_put_of_ne _ _ h, path?]

end Bucket

namespace Schema

namespace Progress

/-- The progress after the file of an item is put into its bucket. -/
def after (p : Progress) (kind : ItemKind) (name : Name) (file : ModuleFile) : Progress where
  output := p.output.setBucket ((p.output.bucket kind).withFile name file) kind
  owners := match p.owners.get? file.name with
    | none => p.owners.put file.name (kind, name)
    | some _ => p.owners

/-- The notices when the file of an item is put into its bucket. -/
def noticesOf (p : Progress) (kind : ItemKind) (name : Name) : List Notice :=
  ((p.output.bucket kind).path? name).toList.map (.duplicate kind name)

theorem putFile_eq_ok_iff {options : Options} {p q : Progress} {kind : ItemKind} {name : Name}
    {file : ModuleFile} {notices : List Notice} :
    p.putFile options kind name file = (.ok q, notices) ↔
      (((p.output.bucket kind).path? name).isSome → options.allowDuplicates.isTruthy = true) ∧
      q = { p with
        output := p.output.setBucket ((p.output.bucket kind).withFile name file) kind } ∧
      notices = p.noticesOf kind name := by
  unfold putFile noticesOf Bucket.withFile Bucket.without
  cases hpath : (p.output.bucket kind).path? name with
  | none =>
    simp only [hpath, Prod.mk.injEq, Except.ok.injEq, Option.isSome_none, Bool.false_eq_true,
      false_implies, true_and, Option.toList_none, List.map_nil]
    exact and_congr eq_comm eq_comm
  | some path =>
    cases hallow : options.allowDuplicates.isTruthy with
    | false => simp [hpath]
    | true =>
      simp only [hpath, Bool.not_true, Bool.false_eq_true, if_false, Prod.mk.injEq, Except.ok.injEq,
        implies_true, true_and, Option.toList_some, List.map_cons, List.map_nil]
      exact and_congr eq_comm eq_comm

/-- **One step**: a file is added unless it is the file of an item of the other kind, or its
item's name is taken and may not be taken twice. -/
theorem add_eq_ok_iff {options : Options} {p q : Progress} {kind : ItemKind} {name : Name}
    {file : ModuleFile} {notices : List Notice} :
    p.add options kind name file = (.ok q, notices) ↔
      (∀ first, p.owners.get? file.name = some first → first.1 = kind) ∧
      (((p.output.bucket kind).path? name).isSome → options.allowDuplicates.isTruthy = true) ∧
      q = p.after kind name file ∧ notices = p.noticesOf kind name := by
  unfold add after
  cases howner : p.owners.get? file.name with
  | none => simp [putFile_eq_ok_iff, noticesOf]
  | some first =>
    obtain ⟨firstKind, firstName⟩ := first
    by_cases hkind : firstKind = kind
    · simp [hkind, putFile_eq_ok_iff]
    · simp [hkind]

/-- **Why a step fails**: the path of the file is that of an item of the other kind, or else the
name is taken and may not be taken twice. -/
theorem add_eq_error_iff {options : Options} {p : Progress} {kind : ItemKind} {name : Name}
    {file : ModuleFile} {e : CompileError} :
    (p.add options kind name file).1 = .error e ↔
      (∃ first, p.owners.get? file.name = some first ∧ first.1 ≠ kind ∧
        e = .collision file.name first.1 first.2 kind name) ∨
      ((∀ first, p.owners.get? file.name = some first → first.1 = kind) ∧
        ((p.output.bucket kind).path? name).isSome ∧ options.allowDuplicates.isTruthy = false ∧
        e = .duplicate kind name) := by
  have hput : ∀ q : Progress, q.output = p.output →
      ((q.putFile options kind name file).1 = .error e ↔
        ((p.output.bucket kind).path? name).isSome ∧ options.allowDuplicates.isTruthy = false ∧
        e = .duplicate kind name) := by
    intro q hq
    unfold putFile
    rw [hq]
    cases hpath : (p.output.bucket kind).path? name with
    | none => simp [hpath]
    | some path =>
      cases hallow : options.allowDuplicates.isTruthy with
      | false =>
        simp only [hpath, Bool.not_false, if_true, Except.error.injEq, Option.isSome_some, true_and]
        exact eq_comm
      | true => simp [hpath]
  unfold add
  cases howner : p.owners.get? file.name with
  | none => simp [hput]
  | some first =>
    obtain ⟨firstKind, firstName⟩ := first
    by_cases hkind : firstKind = kind
    · simp [hkind, hput]
    · simp only [hkind, ne_eq, not_false_eq_true, if_true, Except.error.injEq, Option.some.injEq,
        exists_eq_left', forall_eq', true_and, false_and, or_false]
      exact eq_comm

end Progress

variable {cwd : Path.Location} {options : Options} {schema : Schema}

theorem step_eq_ok_iff {p q : Progress} {item : Item} {notices : List Notice} :
    p.step cwd options schema item = (.ok q, notices) ↔
      ∃ b : Built cwd options schema, b.item = item ∧ ∃ more,
        p.add options b.kind b.name b.file = (.ok q, more) ∧
        notices = .generated b.kind b.name b.file.name :: more := by
  unfold Progress.step
  constructor
  · intro h
    split at h
    · simp at h
    · next kind name file hbuild =>
      simp only [Prod.mk.injEq] at h
      obtain ⟨hq, rfl⟩ := h
      exact ⟨⟨item, kind, name, file, hbuild⟩, rfl, _, Prod.ext hq rfl, rfl⟩
  · rintro ⟨⟨_, kind, name, file, hbuild⟩, rfl, more, hadd, rfl⟩
    rw [hbuild]
    simp only [hadd]

/-- A step fails when the file of its item is not built, or not added. -/
theorem step_eq_error_iff {p : Progress} {item : Item} {e : CompileError} :
    (p.step cwd options schema item).1 = .error e ↔
      schema.build cwd options item = .error e ∨
      ∃ b : Built cwd options schema, b.item = item ∧
        (p.add options b.kind b.name b.file).1 = .error e := by
  unfold Progress.step
  constructor
  · intro h
    split at h
    · next error hbuild => exact .inl (by rw [hbuild, Except.error.inj h])
    · next kind name file hbuild => exact .inr ⟨⟨item, kind, name, file, hbuild⟩, rfl, h⟩
  · rintro (hbuild | ⟨⟨_, kind, name, file, hbuild⟩, rfl, hadd⟩)
    · rw [hbuild]
    · rw [hbuild]
      exact hadd

/-- **Induction on a run**: what holds of the progress at the start and is kept by every file
that is added holds at the end. -/
theorem run_induction (Holds : List (Built cwd options schema) → List Notice → Progress → Prop)
    {items : List Item} (step : ∀ {built told p b q more}, b.item ∈ items → Holds built told p →
      p.add options b.kind b.name b.file = (.ok q, more) →
      Holds (built ++ [b]) (told ++ .generated b.kind b.name b.file.name :: more) q)
    {notices : List Notice} {p q : Progress} (start : Holds [] [] p)
    (h : Progress.run cwd options schema p items = (.ok q, notices)) :
    ∃ built : List (Built cwd options schema), built.map Built.item = items ∧
      Holds built notices q := by
  suffices general : ∀ built told, Holds built told p →
      ∃ more : List (Built cwd options schema), more.map Built.item = items ∧
        Holds (built ++ more) (told ++ notices) q from general [] [] start
  clear start
  induction items generalizing p notices with
  | nil =>
    intro built told hstart
    simp only [Progress.run, Prod.mk.injEq, Except.ok.injEq] at h
    obtain ⟨rfl, rfl⟩ := h
    exact ⟨[], rfl, by simpa using hstart⟩
  | cons item rest ih =>
    intro built told hstart
    rw [Progress.run] at h
    split at h
    · simp at h
    · next next first hstep =>
      obtain ⟨b, hitem, more, hadd, rfl⟩ := step_eq_ok_iff.1 hstep
      simp only [Prod.mk.injEq] at h
      obtain ⟨hrest, rfl⟩ := h
      have hfirst := step (hitem ▸ List.mem_cons_self) hstart hadd
      obtain ⟨later, hlater, hholds⟩ := ih (fun hmem => step (List.mem_cons_of_mem _ hmem))
        (Prod.ext hrest rfl) _ _ hfirst
      refine ⟨b :: later, by rw [List.map_cons, hitem, hlater], ?_⟩
      simpa using hholds

/-- **Induction on a run that fails**: what holds of the progress at the start and is kept by every
file that is added holds where the run fails, after all items before the one that cannot be
added. -/
theorem run_error_induction (Holds : List (Built cwd options schema) → Progress → Prop)
    {items : List Item} (step : ∀ {built p b q more}, Holds built p →
      p.add options b.kind b.name b.file = (.ok q, more) → Holds (built ++ [b]) q)
    {p : Progress} {e : CompileError} (start : Holds [] p)
    (h : (Progress.run cwd options schema p items).1 = .error e) :
    ∃ (built : List (Built cwd options schema)) (item : Item) (rest : List Item) (q : Progress),
      items = built.map Built.item ++ item :: rest ∧ Holds built q ∧
      (q.step cwd options schema item).1 = .error e := by
  suffices general : ∀ built, Holds built p →
      ∃ (more : List (Built cwd options schema)) (item : Item) (rest : List Item) (q : Progress),
        items = more.map Built.item ++ item :: rest ∧ Holds (built ++ more) q ∧
        (q.step cwd options schema item).1 = .error e from general [] start
  clear start
  induction items generalizing p with
  | nil => simp [Progress.run] at h
  | cons item rest ih =>
    intro built hstart
    rw [Progress.run] at h
    split at h
    · next error notices hstep =>
      obtain rfl := Except.error.inj h
      exact ⟨[], item, rest, p, rfl, by simpa using hstart, by rw [hstep]⟩
    · next next first hstep =>
      obtain ⟨b, rfl, more, hadd, -⟩ := step_eq_ok_iff.1 hstep
      obtain ⟨later, last, tail, q, rfl, hholds, hlast⟩ := ih h (built ++ [b]) (step hstart hadd)
      exact ⟨b :: later, last, tail, q, rfl, by simpa using hholds, hlast⟩

theorem compile_eq_ok_iff {output : Output} {notices : List Notice} :
    schema.compile cwd options = (.ok output, notices) ↔
      schema.checkNames = .ok () ∧ ∃ p told,
        Progress.run cwd options schema {} schema = (.ok p, told) ∧ output = p.output ∧
        notices = told ++
          [.compiled output.tables.files.length output.enumerations.files.length] := by
  unfold compile
  constructor
  · intro h
    split at h
    · simp at h
    · next hnames =>
      split at h
      · simp at h
      · next p told hrun =>
        simp only [Prod.mk.injEq, Except.ok.injEq] at h
        obtain ⟨rfl, rfl⟩ := h
        exact ⟨hnames, p, told, hrun, rfl, rfl⟩
  · rintro ⟨hnames, p, told, hrun, rfl, rfl⟩
    rw [hnames]
    simp only [hrun]

/-- Without an output, it is the first name that cannot be used or the run that is to blame. -/
theorem compile_eq_error_iff {e : CompileError} :
    (schema.compile cwd options).1 = .error e ↔
      (∃ reference, schema.checkNames = .error reference ∧ e = .reference reference) ∨
      schema.checkNames = .ok () ∧ (Progress.run cwd options schema {} schema).1 = .error e := by
  unfold compile
  cases schema.checkNames with
  | error reference =>
    simp only [Except.error.injEq, exists_eq_left', reduceCtorEq, false_and, or_false]
    exact eq_comm
  | ok u =>
    simp only [reduceCtorEq, false_and, exists_false, true_and, false_or]
    split
    · next hrun => simp [hrun]
    · next hrun => simp [hrun]

end Schema

end SchemaScribe
