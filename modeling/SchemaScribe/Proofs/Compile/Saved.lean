import SchemaScribe.Proofs.Compile.Buckets
import SchemaScribe.Proofs.FileSystem.Writing

/-!
# What an output is on disk

After an output is written, the path of an entry leads to the file of the last item of its kind and
name, if no other item has a file at that place (`files_of_writeAll`). That no item of another kind
has the same path is not enough: two paths may be spelled differently and lead to one place, and
then the file that is written last is all that is left (`sharedFolder_loses_file`).

What is asked of a run is `Records`: the path of an entry is that of the last item of the name, and
its file is in the bucket with none of the same item behind it, unless an item of another name has
the very same path.
-/

namespace SchemaScribe

open Writer (placeOf)

namespace Schema

variable {cwd : Path.Location} {options : Options} {schema : Schema}

/-! ## Entries and their files -/

section Records

variable {items : List (Built cwd options schema)} {b : Built cwd options schema} {bucket : Bucket}

/-- The files of a bucket are those of the items, and each entry is that of the last item of its
name, whose file has none of the same name behind it. A path that items of several names have is
left out, as the file of one may be taken out for another. -/
structure Records (items : List (Built cwd options schema)) (bucket : Bucket) : Prop where
  files : ∀ f ∈ bucket.files, ∃ c ∈ items, c.file = f
  entries : ∀ name path, bucket.path? name = some path →
    ∃ b ∈ lastsBy Built.key items, b.key = name.key ∧ b.file.name = path ∧
      ((∀ c ∈ items, c.file.name = path → c.key = b.key) →
        ∃ before after, bucket.files = before ++ b.file :: after ∧
          ∀ f ∈ after, ∃ c ∈ items, c.key ≠ b.key ∧ c.file = f)

theorem Records.empty : Records ([] : List (Built cwd options schema)) {} where
  files f hf := by cases hf
  entries name path h := by simp [Bucket.path?, Entries.get?] at h

/-- Taking out the files with a path leaves those before and behind one that has another. -/
theorem exists_split_without {name : Name} {file : ModuleFile} {before after : List ModuleFile}
    (hfiles : bucket.files = before ++ file :: after)
    (hname : bucket.path? name ≠ some file.name) :
    ∃ before' after', (bucket.without name).files = before' ++ file :: after' ∧
      ∀ f ∈ after', f ∈ after := by
  unfold Bucket.without
  split
  · exact ⟨before, after, hfiles, fun f hf => hf⟩
  · next path hpath =>
    have hkeep : decide (file.name ≠ path) = true :=
      decide_eq_true fun heq => hname (heq ▸ hpath)
    have hfilter : (file :: after).filter (·.name ≠ path) =
        file :: after.filter (·.name ≠ path) := List.filter_cons_of_pos hkeep
    refine ⟨before.filter (·.name ≠ path), after.filter (·.name ≠ path), ?_, fun f hf =>
      List.mem_of_mem_filter hf⟩
    rw [hfiles, List.filter_append, hfilter]

theorem mem_of_mem_files_without {name : Name} {f : ModuleFile}
    (hf : f ∈ (bucket.without name).files) : f ∈ bucket.files := by
  unfold Bucket.without at hf
  split at hf
  · exact hf
  · exact List.mem_of_mem_filter hf

/-- **One step**: the file of a further item goes last, and its entry is that of its name. -/
theorem Records.withFile (h : Records items bucket) (b : Built cwd options schema) :
    Records (items ++ [b]) (bucket.withFile b.name b.file) where
  files f hf := by
    rw [Bucket.files_withFile, List.mem_append, List.mem_singleton] at hf
    rcases hf with hf | rfl
    · obtain ⟨c, hc, hfile⟩ := h.files f (mem_of_mem_files_without hf)
      exact ⟨c, List.mem_append_left _ hc, hfile⟩
    · exact ⟨b, by simp, rfl⟩
  entries name path hpath := by
    rw [lastsBy_append_singleton]
    by_cases hname : name.key = b.name.key
    · rw [Bucket.path?_withFile_of_key_eq _ _ hname] at hpath
      refine ⟨b, by simp, hname.symm, Option.some.inj hpath, fun _ => ?_⟩
      exact ⟨(bucket.without b.name).files, [], rfl, by simp⟩
    · rw [Bucket.path?_withFile_of_key_ne _ _ hname] at hpath
      obtain ⟨a, ha, hkey, rfl, hfiles⟩ := h.entries name path hpath
      have hne : a.key ≠ b.key := hkey ▸ hname
      refine ⟨a, List.mem_append_left _ (List.mem_filter.2 ⟨ha, decide_eq_true hne⟩), hkey, rfl,
        fun halone => ?_⟩
      obtain ⟨before, after, hsplit, hafter⟩ := hfiles fun c hc =>
        halone c (List.mem_append_left _ hc)
      -- The file that is taken out for the new item is not that of the entry, as the item of
      -- the file would have its path under another name.
      have hother : bucket.path? b.name ≠ some a.file.name := by
        intro htaken
        obtain ⟨c, hc, hckey, hcfile, -⟩ := h.entries b.name _ htaken
        have hca := halone c (List.mem_append_left _ (mem_of_mem_lastsBy hc)) hcfile
        exact hne (hca.symm.trans hckey)
      obtain ⟨before', after', hsplit', hsub⟩ := exists_split_without hsplit hother
      refine ⟨before', after' ++ [b.file], ?_, fun f hf => ?_⟩
      · rw [Bucket.files_withFile, hsplit', List.append_assoc, List.cons_append]
      · rcases List.mem_append.1 hf with hf | hf
        · obtain ⟨c, hc, hckey, hfile⟩ := hafter f (hsub f hf)
          exact ⟨c, List.mem_append_left _ hc, hckey, hfile⟩
        · exact ⟨b, by simp, hne.symm, (List.mem_singleton.1 hf).symm⟩

end Records

variable {output : Output} {notices : List Notice}

/-- After a compilation each bucket records the items of its kind. -/
theorem exists_records (h : schema.compile cwd options = (.ok output, notices)) :
    ∃ built : List (Built cwd options schema), built.map Built.item = schema ∧
      ∀ kind, Records (Built.ofKind built kind) (output.bucket kind) := by
  obtain ⟨-, p, told, hrun, rfl, -⟩ := compile_eq_ok_iff.1 h
  refine run_induction (fun built _ p =>
    ∀ kind, Records (Built.ofKind built kind) (p.output.bucket kind)) ?_ ?_ hrun
  · intro built told p b q more _ hrecords hadd kind
    obtain ⟨-, -, rfl, -⟩ := Progress.add_eq_ok_iff.1 hadd
    by_cases hkind : b.kind = kind
    · subst hkind
      rw [Progress.after, Output.bucket_setBucket_self, Built.ofKind_append_self]
      exact (hrecords b.kind).withFile b
    · rw [Progress.after, Output.bucket_setBucket_of_ne _ _ (Ne.symm hkind),
        Built.ofKind_append_of_ne _ hkind]
      exact hrecords kind
  · intro kind
    cases kind <;> exact Records.empty

/-! ## After writing -/

variable {writer : Writer} {writing : OutputOptions} {fs later : FileSystem} {folder : FilePath}
  {paths : List FilePath} {told : List Notice}

/-- The file of an item is not overwritten where no other item has a file at its place. -/
theorem exists_split_files {built : List (Built cwd options schema)}
    (hrecords : ∀ kind, Records (Built.ofKind built kind) (output.bucket kind))
    {kind : ItemKind} {b : Built cwd options schema} {before after : List ModuleFile}
    (hsplit : (output.bucket kind).files = before ++ b.file :: after)
    (hafter : ∀ f ∈ after, ∃ c ∈ Built.ofKind built kind, c.key ≠ b.key ∧ c.file = f)
    (halone : ∀ c ∈ built, placeOf fs folder c.file = placeOf fs folder b.file →
      c.kind = kind ∧ c.key = b.key) :
    ∃ before' after', output.files = before' ++ b.file :: after' ∧
      ∀ f ∈ after', placeOf fs folder f ≠ placeOf fs folder b.file := by
  have hbehind : ∀ f ∈ after, placeOf fs folder f ≠ placeOf fs folder b.file := by
    rintro f hf hplace
    obtain ⟨c, hc, hkey, rfl⟩ := hafter f hf
    exact hkey (halone c (Built.mem_ofKind.1 hc).1 hplace).2
  cases kind with
  | table =>
    have htables : output.tables.files = before ++ b.file :: after := hsplit
    exact ⟨output.enumerations.files ++ before, after,
      by rw [Output.files, htables, List.append_assoc], hbehind⟩
  | enumeration =>
    have henumerations : output.enumerations.files = before ++ b.file :: after := hsplit
    refine ⟨before, after ++ output.tables.files,
      by rw [Output.files, henumerations, List.append_assoc, List.cons_append], fun f hf => ?_⟩
    rcases List.mem_append.1 hf with hf | hf
    · exact hbehind f hf
    · intro hplace
      obtain ⟨c, hc, rfl⟩ := (hrecords .table).files f hf
      obtain ⟨hmem, hkind⟩ := Built.mem_ofKind.1 hc
      have hother := (halone c hmem hplace).1
      rw [hkind] at hother
      cases hother

/-- Files of an output are written as such. -/
theorem exists_writeFiles_of_writeAll
    (h : writer.writeAll writing fs output folder = (.ok paths, told, later)) :
    ∃ inner : Writer, inner.token = writer.token ∧ ∃ notices,
      inner.writeFiles writing folder fs output.files = (.ok paths, notices, later) := by
  refine ⟨{ writer with maxMissing := writer.maxMissing - 1 }, rfl, ?_⟩
  unfold Writer.writeAll at h
  simp only at h
  split at h
  · cases h
  · next written notices fs' hfiles =>
    simp only [Prod.mk.injEq, Except.ok.injEq] at h
    obtain ⟨rfl, -, rfl⟩ := h
    exact ⟨notices, hfiles⟩

/-- What is read after the files of an output are written. -/
structure FoundOnDisk (fs : FileSystem) (folder : FilePath)
    (built : List (Built cwd options schema)) (output : Output) (later : FileSystem) : Prop where
  /-- By the path of each file, the content of the last of the files that has its place. -/
  last : ∀ before file after, output.files = before ++ file :: after →
    (∀ other ∈ after, placeOf fs folder other ≠ placeOf fs folder file) →
    ∀ other ∈ output.files, placeOf fs folder other = placeOf fs folder file →
      ∃ bytes, Utf8.encode file.content = .ok bytes ∧
        later.readFile (folder.join other.name) = .ok bytes
  /-- By the path of an entry, the file of the last item of its kind and name, if no other item has
  a file at that place. -/
  entries : ∀ kind name path, (output.bucket kind).path? name = some path →
    ∃ b ∈ lastsBy Built.key (Built.ofKind built kind), b.key = name.key ∧ b.file.name = path ∧
      ((∀ c ∈ built, placeOf fs folder c.file = placeOf fs folder b.file →
          c.kind = kind ∧ c.key = b.key) →
        ∃ bytes, Utf8.encode b.file.content = .ok bytes ∧
          later.readFile (folder.join path) = .ok bytes)

/-- **No file is lost at a place of its own.** After an output is written, each path leads to the
content of the last file at its place, and so the path of an entry to the file of its item where no
other item has a file at that place. -/
theorem files_of_writeAll (h : schema.compile cwd options = (.ok output, notices))
    (hwrite : writer.writeAll writing fs output folder = (.ok paths, told, later))
    (hfresh : writer.IsFresh writing fs folder output.files) :
    ∃ built : List (Built cwd options schema), built.map Built.item = schema ∧
      FoundOnDisk fs folder built output later := by
  obtain ⟨inner, htoken, notices', hfiles⟩ := exists_writeFiles_of_writeAll hwrite
  have hlast : ∀ before file after, output.files = before ++ file :: after →
      (∀ other ∈ after, placeOf fs folder other ≠ placeOf fs folder file) →
      ∀ other ∈ output.files, placeOf fs folder other = placeOf fs folder file →
        ∃ bytes, Utf8.encode file.content = .ok bytes ∧
          later.readFile (folder.join other.name) = .ok bytes := by
    intro before file after hsplit hlast other hother hplace
    rw [hsplit] at hfiles hother hfresh
    refine Writer.readFile_of_writeFiles hfiles ?_ hlast hother hplace
    simpa only [Writer.IsFresh, Writer.temporaryPlace, htoken] using hfresh
  obtain ⟨built, hitems, hrecords⟩ := exists_records h
  refine ⟨built, hitems, hlast, fun kind name path hpath => ?_⟩
  obtain ⟨b, hb, hkey, rfl, hentry⟩ := (hrecords kind).entries name path hpath
  refine ⟨b, hb, hkey, rfl, fun halone => ?_⟩
  obtain ⟨before, after, hsplit, hafter⟩ := hentry fun c hc hname =>
    (halone c (Built.mem_ofKind.1 hc).1 (by rw [placeOf, placeOf, hname])).2
  obtain ⟨before', after', hall, hbehind⟩ := exists_split_files hrecords hsplit hafter halone
  exact hlast before' b.file after' hall hbehind b.file (by rw [hall]; simp) rfl

/-! ## One place by two paths -/

/-- The roles of users. -/
def roles : Enumeration := ⟨.text "User", .list [.text "ADMIN"]⟩

/-- A table and an enumeration of one name. -/
def users : Schema := [.enumeration roles, .table (userKeyedBy "int")]

/-- Plain models, with one folder for both kinds that is spelled in two ways. -/
def sharedFolder : Options :=
  { style := .plain, tableFolder := .text "models", enumFolder := .text "./models" }

/-- The files of `users`. -/
def userFiles (options : Options) : Output := (users.compile [] options).1.toOption.getD {}

/-- A writer. -/
def scribe : Writer := { token := "k3x9w_2q" }

/-- An empty folder in the working directory. -/
def workplace : FileSystem :=
  ⟨["work"], .directory [("work", .directory [("out", .directory [])])]⟩

/-- The path of the empty folder. -/
def outFolder : FilePath := .ofText "out"

/-- The file system after the files of `users` are written to the empty folder. -/
def afterWriting (options : Options) : FileSystem :=
  (scribe.writeAll {} workplace (userFiles options) outFolder).2.2

/-- The file of the roles in the shared folder. -/
def rolesFile : ModuleFile := (enumerationFile sharedFolder roles).toOption.getD default

theorem files_of_writeAll_users :
    ∃ output notices paths told later,
      users.compile [] { style := .plain } = (.ok output, notices) ∧
      scribe.writeAll {} workplace output outFolder = (.ok paths, told, later) ∧
      scribe.IsFresh {} workplace outFolder output.files ∧
      ∃ built : List (Built [] { style := .plain } users), built.map Built.item = users ∧
        FoundOnDisk workplace outFolder built output later := by
  have hcompile : (users.compile [] { style := .plain }).1 =
      .ok (userFiles { style := .plain }) := by decide +kernel
  have hwrite : (scribe.writeAll {} workplace (userFiles { style := .plain }) outFolder).1.isOk =
      true := by decide +kernel
  obtain ⟨paths, hpaths⟩ := isOk_iff.1 hwrite
  have hfresh : scribe.IsFresh {} workplace outFolder (userFiles { style := .plain }).files := by
    unfold Writer.IsFresh
    decide +kernel
  exact ⟨_, _, paths, _, _, Prod.ext hcompile rfl, Prod.ext hpaths rfl, hfresh,
    files_of_writeAll (Prod.ext hcompile rfl) (Prod.ext hpaths rfl) hfresh⟩

/-- Compiling and writing succeed, and yet the path of an enumeration leads to something else than
its file: to the table of its name, whose path is spelled differently. -/
theorem sharedFolder_loses_file :
    ∃ output notices paths told later, users.compile [] sharedFolder = (.ok output, notices) ∧
      scribe.writeAll { mode := .overwrite } workplace output outFolder = (.ok paths, told, later) ∧
      ∃ path file bytes, output.enumerations.path? (.text "User") = some path ∧
        users.build [] sharedFolder (.enumeration roles) =
          .ok (.enumeration, .text "User", file) ∧ file.name = path ∧
        later.readFile (outFolder.join path) = .ok bytes ∧
        Utf8.encode file.content ≠ .ok bytes := by
  have hcompile : (users.compile [] sharedFolder).1 = .ok (userFiles sharedFolder) := by
    decide +kernel
  have hwrite : (scribe.writeAll {} workplace (userFiles sharedFolder) outFolder).1.isOk =
      true := by decide +kernel
  obtain ⟨paths, hpaths⟩ := isOk_iff.1 hwrite
  have hread : ((afterWriting sharedFolder).readFile (outFolder.join rolesFile.name)).isOk =
      true := by decide +kernel
  obtain ⟨bytes, hbytes⟩ := isOk_iff.1 hread
  have hlost : (Utf8.encode rolesFile.content).toOption ≠
      ((afterWriting sharedFolder).readFile (outFolder.join rolesFile.name)).toOption := by
    decide +kernel
  refine ⟨_, _, paths, _, afterWriting sharedFolder, Prod.ext hcompile rfl, Prod.ext hpaths rfl,
    rolesFile.name, rolesFile, bytes, by decide +kernel, by decide +kernel, rfl, hbytes, ?_⟩
  intro hencode
  exact hlost (by rw [hencode, hbytes]; rfl)

end Schema

end SchemaScribe
