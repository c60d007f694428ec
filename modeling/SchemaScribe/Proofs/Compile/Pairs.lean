import Mathlib.Data.List.Forall2
import SchemaScribe.Proofs.Compile.Run

/-!
# Pairs of compilations

Two compilations whose items are built alike come out alike (`compile_alike`): both fail with the
same error, or their buckets have the same entries and, in turn, files with the same paths. What
else the files of each kind have in common is a relation of which nothing is asked.

The relation is kept by one step (`Progress.Alike.add`), as a step looks at a file only for its
path, and so by runs.
-/

namespace SchemaScribe

/-- Two buckets have the same entries, and in turn files with the same paths that are related. -/
structure Bucket.Alike (R : ModuleFile → ModuleFile → Prop) (a b : Bucket) : Prop where
  files : List.Forall₂ (fun f g => f.name = g.name ∧ R f g) a.files b.files
  paths : a.paths = b.paths

/-- Two outputs have buckets alike, with a relation for the files of each kind. -/
def Output.Alike (R : ItemKind → ModuleFile → ModuleFile → Prop) (a b : Output) : Prop :=
  ∀ kind, (a.bucket kind).Alike (R kind) (b.bucket kind)

namespace Bucket.Alike

variable {R : ModuleFile → ModuleFile → Prop} {a b : Bucket}

theorem path?_eq (h : a.Alike R b) (name : Name) : a.path? name = b.path? name := by
  rw [path?, path?, h.paths]

theorem without (h : a.Alike R b) (name : Name) : (a.without name).Alike R (b.without name) := by
  unfold Bucket.without
  rw [h.path?_eq]
  split
  · exact h
  · refine ⟨List.rel_filter (fun f g hfg => ?_) h.files, h.paths⟩
    simp only [hfg.1]

theorem withFile (h : a.Alike R b) (name : Name) {f g : ModuleFile} (hname : f.name = g.name)
    (hR : R f g) : (a.withFile name f).Alike R (b.withFile name g) where
  files := by
    rw [files_withFile, files_withFile]
    exact List.rel_append (h.without name).files (.cons ⟨hname, hR⟩ .nil)
  paths := by
    simp only [paths_withFile, putPath, h.paths, hname]

end Bucket.Alike

namespace Schema

variable {cwd : Path.Location} {options options' : Options} {s t : Schema}
  {R : ItemKind → ModuleFile → ModuleFile → Prop}

/-- What is built from two items is of the same kind, name and path, and related. -/
structure BuildAlike (R : ItemKind → ModuleFile → ModuleFile → Prop)
    (a b : ItemKind × Name × ModuleFile) : Prop where
  kind : a.1 = b.1
  name : a.2.1 = b.2.1
  path : a.2.2.name = b.2.2.name
  related : R a.1 a.2.2 b.2.2

namespace Progress

/-- Two compilations have come equally far. -/
structure Alike (R : ItemKind → ModuleFile → ModuleFile → Prop) (p q : Progress) : Prop where
  output : p.output.Alike R q.output
  owners : p.owners = q.owners

/-- **One step**: files with the same path are added alike. -/
theorem Alike.add {p q : Progress} (h : p.Alike R q)
    (hallow : options.allowDuplicates = options'.allowDuplicates) (kind : ItemKind) (name : Name)
    {f g : ModuleFile} (hname : f.name = g.name) (hR : R kind f g) :
    Both (Alike R) (p.add options kind name f).1 (q.add options' kind name g).1 := by
  have hpath : (p.output.bucket kind).path? name = (q.output.bucket kind).path? name :=
    (h.output kind).path?_eq name
  cases hp : (p.add options kind name f).1 with
  | error e =>
    have hq : (q.add options' kind name g).1 = .error e := by
      rw [add_eq_error_iff] at hp ⊢
      rwa [h.owners, hname, hpath, hallow] at hp
    rw [hq]
    exact .error e
  | ok next =>
    obtain ⟨howner, htaken, rfl, -⟩ := add_eq_ok_iff.1 (Prod.ext hp rfl)
    rw [h.owners, hname] at howner
    rw [hpath, hallow] at htaken
    rw [(add_eq_ok_iff.2 ⟨howner, htaken, rfl, rfl⟩ :
      q.add options' kind name g = (.ok (q.after kind name g), q.noticesOf kind name))]
    refine .ok ⟨fun other => ?_, ?_⟩
    · by_cases hother : other = kind
      · subst hother
        simpa only [after, Output.bucket_setBucket_self] using
          (h.output other).withFile name hname hR
      · simpa only [after, Output.bucket_setBucket_of_ne _ _ hother] using h.output other
    · simp only [after, h.owners, hname]

theorem step_fst (p : Progress) (item : Item) :
    (p.step cwd options s item).1 =
      s.build cwd options item >>= fun b => (p.add options b.1 b.2.1 b.2.2).1 := by
  unfold step
  split
  · next hbuild => rw [hbuild]; rfl
  · next hbuild => rw [hbuild]; rfl

theorem run_cons_fst (p : Progress) (item : Item) (rest : List Item) :
    (run cwd options s p (item :: rest)).1 =
      (p.step cwd options s item).1 >>= fun next => (run cwd options s next rest).1 := by
  rw [run]
  split
  · next hstep => rw [hstep]; rfl
  · next hstep => rw [hstep]; rfl

/-- **A whole run**: items that are built alike in turn are compiled alike. -/
theorem Alike.run {p q : Progress} (h : p.Alike R q)
    (hallow : options.allowDuplicates = options'.allowDuplicates) {items items' : List Item}
    (hitems : List.Forall₂ (fun item item' =>
      Both (BuildAlike R) (s.build cwd options item) (t.build cwd options' item')) items items') :
    Both (Alike R) (Progress.run cwd options s p items).1
      (Progress.run cwd options' t q items').1 := by
  induction hitems generalizing p q with
  | nil => exact .ok h
  | cons hitem _ ih =>
    rw [run_cons_fst, run_cons_fst, step_fst, step_fst]
    refine (hitem.bind fun b c hbc => ?_).bind fun next next' hnext => ih hnext
    rw [← hbc.kind, ← hbc.name]
    exact h.add hallow _ _ hbc.path hbc.related

end Progress

theorem compile_fst (cwd : Path.Location) (options : Options) (schema : Schema) :
    (schema.compile cwd options).1 = schema.checkNames.mapError .reference >>= fun _ =>
      (Progress.run cwd options schema {} schema).1 >>= fun p => .ok p.output := by
  unfold compile
  split
  · next hnames => rw [hnames]; rfl
  · next hnames =>
    rw [hnames, mapError_ok]
    split
    · next hrun => rw [hrun]; rfl
    · next hrun => rw [hrun]; rfl

/-- **Schemas whose items are built alike are compiled alike.** -/
theorem compile_alike
    (hitems : List.Forall₂ (fun item item' =>
      Both (BuildAlike R) (s.build cwd options item) (t.build cwd options' item')) s t)
    (hnames : s.checkNames = t.checkNames)
    (hallow : options.allowDuplicates = options'.allowDuplicates) :
    Both (Output.Alike R) (s.compile cwd options).1 (t.compile cwd options').1 := by
  have hstart : Progress.Alike R {} {} :=
    ⟨fun kind => by cases kind <;> exact ⟨.nil, rfl⟩, rfl⟩
  rw [compile_fst, compile_fst, hnames]
  cases t.checkNames with
  | error e => exact .error _
  | ok u => exact (hstart.run hallow hitems).bind fun p q h => .ok h.output

end Schema

end SchemaScribe
