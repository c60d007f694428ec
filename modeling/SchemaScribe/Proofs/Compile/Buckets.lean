import SchemaScribe.Proofs.Compile.Acceptance
import SchemaScribe.Proofs.Layout.FileName
import SchemaScribe.Proofs.Occurrence

/-!
# What the buckets hold

The contents of the buckets of a compilation (`buckets_of_compile`): of the items of a kind and
name the last gives the file, and the first the place of the entry under which it is found.

A later item of a name takes the files with the path of the earlier one out of the bucket. That
these are just the file of the earlier one rests on `Built.key_eq_iff`: below relative folders,
files of one kind have one path exactly when their items have one name.
-/

namespace SchemaScribe

/-- Whether the notice is that an item of the kind takes the place of an earlier one. -/
def Notice.replaces (kind : ItemKind) : Notice → Bool
  | .duplicate other _ _ => other = kind
  | _ => false

namespace Built

variable {cwd : Path.Location} {options : Options} {schema : Schema}

/-- What tells an item from the others of its kind. -/
def key (b : Built cwd options schema) : Json := b.name.key

/-- The entry under which the file of an item is found. -/
def entry (b : Built cwd options schema) : Json × NamedPath := (b.key, ⟨b.name, b.file.name⟩)

/-- Below relative folders the files of two items of a kind have one path exactly when the items
have one name. -/
theorem key_eq_iff (folders : options.HasRelativeFolders) {a b : Built cwd options schema}
    (ha : ∃ t, a.name = .text t) (hb : ∃ t, b.name = .text t) (hkind : a.kind = b.kind) :
    a.key = b.key ↔ a.file.name = b.file.name := by
  obtain ⟨s, hs⟩ := ha
  obtain ⟨t, ht⟩ := hb
  have hpa := a.fileName_eq
  have hpb := b.fileName_eq
  rw [hs, hkind] at hpa
  rw [ht] at hpb
  constructor
  · intro hkey
    have hst : s = t := by simpa [key, hs, ht, Json.key] using hkey
    subst hst
    exact Except.ok.inj (hpa.symm.trans hpb)
  · intro hfile
    rw [hfile] at hpa
    rw [key, key, hs, ht, Options.fileName_inj folders hpa hpb]

/-- The items of a kind. -/
def ofKind (built : List (Built cwd options schema)) (kind : ItemKind) :
    List (Built cwd options schema) := built.filter (·.kind = kind)

theorem mem_ofKind {built : List (Built cwd options schema)} {b : Built cwd options schema}
    {kind : ItemKind} : b ∈ ofKind built kind ↔ b ∈ built ∧ b.kind = kind := by
  simp [ofKind]

theorem ofKind_append_self (built : List (Built cwd options schema))
    (b : Built cwd options schema) : ofKind (built ++ [b]) b.kind = ofKind built b.kind ++ [b] := by
  simp [ofKind]

theorem ofKind_append_of_ne (built : List (Built cwd options schema))
    {b : Built cwd options schema} {kind : ItemKind} (h : b.kind ≠ kind) :
    ofKind (built ++ [b]) kind = ofKind built kind := by
  simp [ofKind, h]

end Built

namespace Schema

variable {cwd : Path.Location} {options : Options} {schema : Schema}
  {built : List (Built cwd options schema)} {b : Built cwd options schema} {p q : Progress}
  {told : List Notice}

/-- The buckets and the notices are those after the given items. -/
structure Fills (built : List (Built cwd options schema)) (told : List Notice) (output : Output) :
    Prop where
  names : ∀ b ∈ built, ∃ t, b.name = .text t
  files : ∀ kind, (output.bucket kind).files =
    (lastsBy Built.key (Built.ofKind built kind)).map Built.file
  paths : ∀ kind, (output.bucket kind).paths =
    (firstsBy Built.key (Built.ofKind built kind)).map Built.entry
  replaced : ∀ kind, told.countP (·.replaces kind) +
    (firstsBy Built.key (Built.ofKind built kind)).length = (Built.ofKind built kind).length

theorem Fills.start : Fills ([] : List (Built cwd options schema)) [] {} where
  names := by simp
  files kind := by cases kind <;> rfl
  paths kind := by cases kind <;> rfl
  replaced _ := rfl

/-- A name that is taken has the path that its next item would have. -/
theorem Fills.path?_eq (folders : options.HasRelativeFolders) {output : Output}
    (h : Fills built told output) (hb : ∃ t, b.name = .text t) :
    (output.bucket b.kind).path? b.name =
      if ∃ a ∈ Built.ofKind built b.kind, a.key = b.key then some b.file.name else none := by
  have hget : (output.bucket b.kind).path? b.name =
      ((firstsBy Built.key (Built.ofKind built b.kind)).find? (·.key = b.key)).map
        (·.file.name) := by
    rw [Bucket.path?, h.paths]
    unfold Built.entry
    rw [Entries.get?_map, Option.map_map]
    rfl
  rw [hget]
  split
  · next hex =>
    obtain ⟨c, hc, hck⟩ := exists_mem_firstsBy hex
    have hsome : ((firstsBy Built.key (Built.ofKind built b.kind)).find? (·.key = b.key)).isSome :=
      List.find?_isSome.2 ⟨c, hc, decide_eq_true hck⟩
    obtain ⟨a, ha⟩ := Option.isSome_iff_exists.1 hsome
    have hkey : a.key = b.key := by simpa using List.find?_some ha
    obtain ⟨hmem, hkind⟩ := Built.mem_ofKind.1 (mem_of_mem_firstsBy (List.mem_of_find?_eq_some ha))
    rw [ha, Option.map_some, (Built.key_eq_iff folders (h.names a hmem) hb hkind).1 hkey]
  · next hne =>
    rw [Option.map_eq_none_iff, List.find?_eq_none]
    intro a ha hkey
    exact hne ⟨a, mem_of_mem_firstsBy ha, of_decide_eq_true hkey⟩

/-- Taking out an earlier item of a name leaves the files of the items of other names. -/
theorem Fills.files_without (folders : options.HasRelativeFolders) {output : Output}
    (h : Fills built told output) (hb : ∃ t, b.name = .text t) :
    ((output.bucket b.kind).without b.name).files =
      ((lastsBy Built.key (Built.ofKind built b.kind)).filter (·.key ≠ b.key)).map Built.file := by
  have hpath := h.path?_eq folders hb
  unfold Bucket.without
  split at hpath
  · have hfile : ∀ a ∈ lastsBy Built.key (Built.ofKind built b.kind),
        (a.key = b.key ↔ a.file.name = b.file.name) := by
      intro a ha
      obtain ⟨hmem, hkind⟩ := Built.mem_ofKind.1 (mem_of_mem_lastsBy ha)
      exact Built.key_eq_iff folders (h.names a hmem) hb hkind
    simp only [hpath, h.files, List.filter_map]
    refine congrArg (List.map Built.file) (List.filter_congr fun a ha => ?_)
    simp only [Function.comp_apply, ne_eq, hfile a ha]
  · next hne =>
    have hkeep : ∀ a ∈ lastsBy Built.key (Built.ofKind built b.kind), a.key ≠ b.key :=
      fun a ha hkey => hne ⟨a, mem_of_mem_lastsBy ha, hkey⟩
    rw [hpath, List.filter_eq_self.2 fun a ha => decide_eq_true (hkeep a ha)]
    exact h.files b.kind

/-- The entry of an item goes last, unless its name has one. -/
theorem Fills.paths_withFile (folders : options.HasRelativeFolders) {output : Output}
    (h : Fills built told output) (hb : ∃ t, b.name = .text t) :
    ((output.bucket b.kind).withFile b.name b.file).paths =
      (firstsBy Built.key (Built.ofKind built b.kind ++ [b])).map Built.entry := by
  have hpath := h.path?_eq folders hb
  rw [firstsBy_append_singleton]
  split at hpath
  · next hex =>
    obtain ⟨named, hnamed, hfile⟩ := Option.map_eq_some_iff.1 hpath
    rw [if_pos hex, ← h.paths, Bucket.paths_withFile, Bucket.putPath, hnamed]
    exact Entries.put_eq_self (by rw [hnamed, ← hfile]; rfl)
  · next hne =>
    rw [if_neg hne, List.map_append, ← h.paths, Bucket.withFile_of_path?_eq_none _ hpath]
    rfl

/-- Each further item gives a new first one or a notice. -/
theorem Fills.countP_noticesOf (folders : options.HasRelativeFolders)
    (h : Fills built told p.output) (hb : ∃ t, b.name = .text t) :
    (p.noticesOf b.kind b.name).countP (·.replaces b.kind) +
      (firstsBy Built.key (Built.ofKind built b.kind ++ [b])).length =
        (firstsBy Built.key (Built.ofKind built b.kind)).length + 1 := by
  have hpath := h.path?_eq folders hb
  rw [Progress.noticesOf, hpath, firstsBy_append_singleton]
  split
  · simp [Notice.replaces]
    omega
  · simp

/-- **One step**: the buckets after a file is added are those after the items and one more. -/
theorem Fills.add (folders : options.HasRelativeFolders) {more : List Notice}
    (h : Fills built told p.output) (hb : ∃ t, b.name = .text t)
    (hadd : p.add options b.kind b.name b.file = (.ok q, more)) :
    Fills (built ++ [b]) (told ++ .generated b.kind b.name b.file.name :: more) q.output := by
  obtain ⟨-, -, rfl, rfl⟩ := Progress.add_eq_ok_iff.1 hadd
  refine ⟨?_, fun kind => ?_, fun kind => ?_, fun kind => ?_⟩
  · intro a ha
    rcases List.mem_append.1 ha with ha | ha
    · exact h.names a ha
    · exact List.mem_singleton.1 ha ▸ hb
  · by_cases hkind : b.kind = kind
    · subst hkind
      rw [Progress.after, Output.bucket_setBucket_self, Bucket.files_withFile,
        h.files_without folders hb, Built.ofKind_append_self, lastsBy_append_singleton,
        List.map_append, List.map_singleton]
    · rw [Progress.after, Output.bucket_setBucket_of_ne _ _ (Ne.symm hkind), h.files,
        Built.ofKind_append_of_ne _ hkind]
  · by_cases hkind : b.kind = kind
    · subst hkind
      rw [Progress.after, Output.bucket_setBucket_self, h.paths_withFile folders hb,
        Built.ofKind_append_self]
    · rw [Progress.after, Output.bucket_setBucket_of_ne _ _ (Ne.symm hkind), h.paths,
        Built.ofKind_append_of_ne _ hkind]
  · rw [List.countP_append, List.countP_cons]
    have hgenerated : Notice.replaces kind (.generated b.kind b.name b.file.name) = false := rfl
    have hbefore := h.replaced kind
    by_cases hkind : b.kind = kind
    · subst hkind
      have hone := h.countP_noticesOf folders hb
      rw [Built.ofKind_append_self, hgenerated, List.length_append, List.length_singleton]
      simp only [Bool.false_eq_true, if_false]
      omega
    · have hother : (p.noticesOf b.kind b.name).countP (·.replaces kind) = 0 := by
        rw [List.countP_eq_zero]
        intro notice hnotice
        obtain ⟨path, -, rfl⟩ := List.mem_map.1 hnotice
        simp [Notice.replaces, hkind]
      rw [Built.ofKind_append_of_ne _ hkind, hgenerated, hother]
      simpa using hbefore

/-! ## After a compilation -/

/-- What holds after a compilation: its progress is that after all items, and so are its buckets
and notices. -/
theorem exists_fills (folders : options.HasRelativeFolders) (names : schema.HasTextNames)
    {output : Output} {notices : List Notice}
    (h : schema.compile cwd options = (.ok output, notices)) :
    ∃ built : List (Built cwd options schema), built.map Built.item = schema ∧
      built.Pairwise Built.Compatible ∧ Fills built notices output := by
  obtain ⟨-, p, told, hrun, rfl, rfl⟩ := compile_eq_ok_iff.1 h
  obtain ⟨built, hitems, hdescribes, hfills⟩ := run_induction
    (fun built told p => Describes built p ∧ Fills built told p.output)
    (fun hmem h hadd => ⟨h.1.add hadd, h.2.add folders (names _ hmem _ (Built.name?_item _)) hadd⟩)
    ⟨Describes.start, Fills.start⟩ hrun
  refine ⟨built, hitems, hdescribes.compatible, { hfills with replaced := fun kind => ?_ }⟩
  simpa [Notice.replaces] using hfills.replaced kind

/-- Where a name may not be taken twice, no two items of a kind have one. -/
theorem nodup_keys (h : built.Pairwise Built.Compatible)
    (hallow : options.allowDuplicates.isTruthy = false) (kind : ItemKind) :
    ((Built.ofKind built kind).map Built.key).Nodup := by
  rw [List.Nodup, List.pairwise_map]
  refine (h.sublist List.filter_sublist).imp_of_mem fun {a b} ha hb hab hkey => ?_
  have hkinds : a.kind = b.kind := by
    rw [(Built.mem_ofKind.1 ha).2, (Built.mem_ofKind.1 hb).2]
  simpa [hallow] using hab.name hkinds hkey

/-- Each of the items has its file and its entry in the output. -/
structure Keeps (built : List (Built cwd options schema)) (output : Output) : Prop where
  files : ∀ kind, (output.bucket kind).files = (Built.ofKind built kind).map Built.file
  paths : ∀ kind, (output.bucket kind).paths = (Built.ofKind built kind).map Built.entry

theorem Keeps.start : Keeps ([] : List (Built cwd options schema)) {} where
  files kind := by cases kind <;> rfl
  paths kind := by cases kind <;> rfl

/-- **One step**: where names may not be taken twice, no file and no entry is lost. -/
theorem Keeps.add {more : List Notice} (h : Keeps built p.output)
    (hallow : options.allowDuplicates.isTruthy = false)
    (hadd : p.add options b.kind b.name b.file = (.ok q, more)) :
    Keeps (built ++ [b]) q.output := by
  obtain ⟨-, htaken, rfl, -⟩ := Progress.add_eq_ok_iff.1 hadd
  have hnone : (p.output.bucket b.kind).path? b.name = none := by
    rw [← Option.not_isSome_iff_eq_none]
    intro hsome
    simp [htaken hsome] at hallow
  have hbucket := Bucket.withFile_of_path?_eq_none b.file hnone
  refine ⟨fun kind => ?_, fun kind => ?_⟩
  · by_cases hkind : b.kind = kind
    · subst hkind
      rw [Progress.after, Output.bucket_setBucket_self, hbucket, h.files,
        Built.ofKind_append_self, List.map_append, List.map_singleton]
    · rw [Progress.after, Output.bucket_setBucket_of_ne _ _ (Ne.symm hkind), h.files,
        Built.ofKind_append_of_ne _ hkind]
  · by_cases hkind : b.kind = kind
    · subst hkind
      rw [Progress.after, Output.bucket_setBucket_self, hbucket, h.paths,
        Built.ofKind_append_self, List.map_append, List.map_singleton]
      rfl
    · rw [Progress.after, Output.bucket_setBucket_of_ne _ _ (Ne.symm hkind), h.paths,
        Built.ofKind_append_of_ne _ hkind]

/-- Where names may not be taken twice, a compilation leaves every item its file and its entry. -/
theorem exists_keeps {output : Output} (h : (schema.compile cwd options).1 = .ok output)
    (hallow : options.allowDuplicates.isTruthy = false) :
    ∃ built : List (Built cwd options schema), built.map Built.item = schema ∧
      built.Pairwise Built.Compatible ∧ Keeps built output := by
  obtain ⟨-, p, told, hrun, rfl, -⟩ := compile_eq_ok_iff.1 (Prod.ext h rfl)
  obtain ⟨built, hitems, hdescribes, hkeeps⟩ := run_induction
    (fun built _ p => Describes built p ∧ Keeps built p.output)
    (fun _ h hadd => ⟨h.1.add hadd, h.2.add hallow hadd⟩) ⟨Describes.start, Keeps.start⟩ hrun
  exact ⟨built, hitems, hdescribes.compatible, hkeeps⟩

/-- The files of a bucket have different paths. -/
theorem Fills.nodup_names (folders : options.HasRelativeFolders) {output : Output}
    (h : Fills built told output) (kind : ItemKind) :
    ((output.bucket kind).files.map ModuleFile.name).Nodup := by
  have hkeys := nodup_map_lastsBy Built.key (Built.ofKind built kind)
  rw [h.files, List.map_map, List.Nodup, List.pairwise_map]
  rw [List.Nodup, List.pairwise_map] at hkeys
  refine hkeys.imp_of_mem fun {a b} ha hb hne hfile => hne ?_
  obtain ⟨hamem, hakind⟩ := Built.mem_ofKind.1 (mem_of_mem_lastsBy ha)
  obtain ⟨hbmem, hbkind⟩ := Built.mem_ofKind.1 (mem_of_mem_lastsBy hb)
  have hkinds : a.kind = b.kind := hakind.trans hbkind.symm
  exact (Built.key_eq_iff folders (h.names a hamem) (h.names b hbmem) hkinds).2 hfile

/-- A file of a bucket is that of an item of the kind. -/
theorem Fills.exists_of_mem_files {output : Output} (h : Fills built told output)
    (kind : ItemKind) {file : ModuleFile} (hfile : file ∈ (output.bucket kind).files) :
    ∃ b ∈ built, b.kind = kind ∧ b.file = file := by
  rw [h.files] at hfile
  obtain ⟨b, hb, hbfile⟩ := List.mem_map.1 hfile
  obtain ⟨hmem, hkind⟩ := Built.mem_ofKind.1 (mem_of_mem_lastsBy hb)
  exact ⟨b, hmem, hkind, hbfile⟩

/-- The file of the last item of a name is in the bucket of its kind. -/
theorem Fills.mem_files_of_last {output : Output} (h : Fills built told output) {kind : ItemKind}
    (hb : b ∈ lastsBy Built.key (Built.ofKind built kind)) :
    b.file ∈ (output.bucket kind).files := by
  rw [h.files]
  exact List.mem_map_of_mem hb

/-- The last item of a name is found under it. -/
theorem Fills.path?_of_last (folders : options.HasRelativeFolders) {output : Output}
    (h : Fills built told output) {kind : ItemKind}
    (hb : b ∈ lastsBy Built.key (Built.ofKind built kind)) :
    (output.bucket kind).path? b.name = some b.file.name := by
  have hmem := mem_of_mem_lastsBy hb
  obtain ⟨hbuilt, rfl⟩ := Built.mem_ofKind.1 hmem
  rw [h.path?_eq folders (h.names b hbuilt), if_pos ⟨b, hmem, rfl⟩]

theorem length_ofKind_add (built : List (Built cwd options schema)) :
    (Built.ofKind built .table).length + (Built.ofKind built .enumeration).length =
      built.length := by
  induction built with
  | nil => rfl
  | cons b rest ih =>
    simp only [Built.ofKind, List.filter_cons] at ih ⊢
    cases hkind : b.kind <;> simp <;> omega

theorem countP_warning (notices : List Notice) :
    notices.countP (·.level = .warning) =
      notices.countP (·.replaces .table) + notices.countP (·.replaces .enumeration) := by
  induction notices with
  | nil => rfl
  | cons notice rest ih =>
    rw [List.countP_cons, List.countP_cons, List.countP_cons, ih]
    cases notice with
    | duplicate kind name file => cases kind <;> simp [Notice.level, Notice.replaces] <;> omega
    | _ => rfl

/-- The output and the notices of a compilation hold exactly what the given items, in their order,
leave in them. -/
structure Leaves (options : Options) (built : List (Built cwd options schema))
    (notices : List Notice) (output : Output) : Prop where
  /-- The last item of a name gives the file. -/
  files : ∀ kind, (output.bucket kind).files =
    (lastsBy Built.key (Built.ofKind built kind)).map Built.file
  /-- Each name has one entry, at the place of its first item. -/
  paths : ∀ kind, (output.bucket kind).paths =
    (firstsBy Built.key (Built.ofKind built kind)).map Built.entry
  /-- The entry of a name has the path of the file that is left. -/
  path?_eq : ∀ kind, ∀ b ∈ lastsBy Built.key (Built.ofKind built kind),
    (output.bucket kind).path? b.name = some b.file.name
  /-- Each item gives a file or the notice that it takes the place of another. -/
  replaced : ∀ kind, notices.countP (·.replaces kind) + (output.bucket kind).files.length =
    (Built.ofKind built kind).length
  warnings : notices.countP (·.level = .warning) + output.files.length = built.length
  /-- No two files have one path. -/
  nodup : (output.files.map ModuleFile.name).Nodup
  /-- Where names may not be taken twice, each item has its file and its entry. -/
  files_of_unique : options.allowDuplicates.isTruthy = false → ∀ kind,
    (output.bucket kind).files = (Built.ofKind built kind).map Built.file
  paths_of_unique : options.allowDuplicates.isTruthy = false → ∀ kind,
    (output.bucket kind).paths = (Built.ofKind built kind).map Built.entry

/-- **What the buckets hold.** Below relative folders and for items that have texts for names,
each bucket holds the files of those items of its kind that are the last of their name, in order,
and one entry for each name, in the order of the first items. -/
theorem buckets_of_compile (folders : options.HasRelativeFolders) (names : schema.HasTextNames)
    {output : Output} {notices : List Notice}
    (h : schema.compile cwd options = (.ok output, notices)) :
    ∃ built : List (Built cwd options schema), built.map Built.item = schema ∧
      Leaves options built notices output := by
  obtain ⟨built, hitems, hcompatible, hfills⟩ := exists_fills folders names h
  have hcount : ∀ kind, notices.countP (·.replaces kind) + (output.bucket kind).files.length =
      (Built.ofKind built kind).length := by
    intro kind
    rw [hfills.files, List.length_map, ← length_firstsBy]
    exact hfills.replaced kind
  refine ⟨built, hitems, hfills.files, hfills.paths,
    fun kind b hb => hfills.path?_of_last folders hb, hcount, ?_, ?_, ?_, ?_⟩
  · have htables := hcount .table
    have henumerations := hcount .enumeration
    have hsum := length_ofKind_add built
    rw [countP_warning, Output.files, List.length_append]
    simp only [Output.bucket] at htables henumerations
    omega
  · rw [Output.files, List.map_append, List.nodup_append]
    refine ⟨hfills.nodup_names folders .enumeration, hfills.nodup_names folders .table, ?_⟩
    intro s hs t ht
    obtain ⟨e, he, rfl⟩ := List.mem_map.1 hs
    obtain ⟨f, hf, rfl⟩ := List.mem_map.1 ht
    obtain ⟨a, ha, hakind, rfl⟩ := hfills.exists_of_mem_files .enumeration he
    obtain ⟨b, hb, hbkind, rfl⟩ := hfills.exists_of_mem_files .table hf
    intro hname
    have hkinds := Built.kind_eq_of_compatible hcompatible ha hb hname
    rw [hakind, hbkind] at hkinds
    cases hkinds
  · intro hallow kind
    rw [hfills.files, lastsBy_eq_self (nodup_keys hcompatible hallow kind)]
  · intro hallow kind
    rw [hfills.paths, firstsBy_eq_self (nodup_keys hcompatible hallow kind)]

/-- A table of users whose key has the given type. -/
def userKeyedBy (type : String) : Table :=
  ⟨.text "User", [⟨.text "id", .common (.text type), []⟩]⟩

/-- A relation to a user. -/
def author : Column :=
  ⟨.text "author", .relation (.text "relation") (.text "User") (.text "id"), []⟩

/-- A table of posts, with the author of each and the role in which it was written. -/
def post : Table :=
  ⟨.text "Post", [author, ⟨.text "role", .enumeration (.text "enum") (.text "User"), []⟩]⟩

/-- A schema that defines a table twice, with an enumeration of the same name between, and the
second time with another type for the column that a relation refers to. -/
def redefined : Schema :=
  [.table (userKeyedBy "int"), .enumeration ⟨.text "User", .list [.text "ADMIN"]⟩, .table post,
    .table (userKeyedBy "text")]

/-- Plain models, and the last item of a name wins. -/
def lastWins : Options := { style := .plain, allowDuplicates := .bool true }

theorem hasRelativeFolders_lastWins : lastWins.HasRelativeFolders where
  root := ⟨"ts-model", rfl, by decide⟩
  folder kind := by
    cases kind with
    | table => exact ⟨"table", rfl, by decide⟩
    | enumeration => exact ⟨"enum", rfl, by decide⟩

theorem hasTextNames_redefined : HasTextNames redefined := by
  simp [HasTextNames, redefined, Item.name?, userKeyedBy, post]

theorem compile_redefined : ∃ output, (redefined.compile [] lastWins).1 = .ok output :=
  isOk_iff.1 (by decide +kernel)

theorem buckets_of_compile_redefined :
    lastWins.HasRelativeFolders ∧ HasTextNames redefined ∧ ∃ output notices,
      redefined.compile [] lastWins = (.ok output, notices) ∧
      ∃ built : List (Built [] lastWins redefined), built.map Built.item = redefined ∧
        Leaves lastWins built notices output := by
  obtain ⟨output, h⟩ := compile_redefined
  exact ⟨hasRelativeFolders_lastWins, hasTextNames_redefined, output, _, Prod.ext h rfl,
    buckets_of_compile hasRelativeFolders_lastWins hasTextNames_redefined (Prod.ext h rfl)⟩

end Schema

end SchemaScribe
