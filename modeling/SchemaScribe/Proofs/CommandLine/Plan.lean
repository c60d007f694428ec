import SchemaScribe.CommandLine.Run
import SchemaScribe.Proofs.FileSystem.Atomic

/-!
# What a run writes

A run comes to a plan when its arguments, its configuration and its schema are accepted and the
schema is compiled (`Plan.IsOf`). Without a plan it leaves the file system as it is; with one, and
when files are written aside, it writes the files of the plan up to one of them, all of them exactly
when it succeeds, and changes no other file (`run_writes_first`).
-/

namespace SchemaScribe.CommandLine

open SchemaScribe.Writer (placeOf)

/-- What is written where and how, once everything else has succeeded. -/
structure Plan where
  job : Job
  options : Options
  output : Output

/-- The folder below which the files of a plan are written. -/
def Plan.folder (plan : Plan) : FilePath := absolutePath plan.job.output

/-- A run comes to the plan. -/
structure Plan.IsOf (plan : Plan) (env : Environment) (fs : FileSystem) (list : List Text) :
    Prop where
  job : ∃ arguments, Arguments.parse list = .ok arguments ∧ prepare fs arguments = .ok plan.job
  options : readOptions fs plan.job = .ok plan.options
  output : ∃ schema, (Schema.load schemaLevels fs env.fetch plan.job.source).1 = .ok schema ∧
    (schema.compile fs.cwd plan.options).1 = .ok plan.output

variable {env : Environment} {fs : FileSystem} {list : List Text} {plan : Plan}

/-- An output is generated when the schema is loaded and compiled. -/
theorem generate_fst_eq_ok_iff {options : Options} {source : Text} {output : Output} :
    (generate env fs options source).1 = .ok output ↔
      ∃ schema, (Schema.load schemaLevels fs env.fetch source).1 = .ok schema ∧
        (schema.compile fs.cwd options).1 = .ok output := by
  unfold generate
  split
  · next hload => simp [hload]
  · next schema notices hload => simp [hload, mapError_eq_ok_iff]

/-- How a run that comes to a plan ends: as the writing of the output does. -/
def endingOf : Except WriteError (List FilePath) → Ending
  | .ok _ => .success
  | .error e => .failure (.write e)

/-- **With a plan** a run is the writing of its output. -/
theorem run_of_plan (h : plan.IsOf env fs list) :
    (run env fs list).2 =
        (env.writer.writeAll plan.options.output fs plan.output plan.folder).2.2 ∧
      (run env fs list).1.ending =
        endingOf (env.writer.writeAll plan.options.output fs plan.output plan.folder).1 := by
  obtain ⟨arguments, hparse, hprepare⟩ := h.job
  have hgenerate := generate_fst_eq_ok_iff.2 h.output
  cases hgenerated : generate env fs plan.options plan.job.source with
  | mk result notices =>
    obtain rfl : result = .ok plan.output := by rwa [hgenerated] at hgenerate
    unfold run
    simp only [hparse, hprepare, perform, h.options, hgenerated]
    change _ = (env.writer.writeAll plan.options.output fs plan.output
      (absolutePath plan.job.output)).2.2 ∧ _ = endingOf (env.writer.writeAll plan.options.output fs
        plan.output (absolutePath plan.job.output)).1
    cases env.writer.writeAll plan.options.output fs plan.output (absolutePath plan.job.output) with
    | mk result tail =>
      cases result with
      | error e => exact ⟨rfl, rfl⟩
      | ok paths => exact ⟨rfl, rfl⟩

/-! ## Runs that come to no plan -/

theorem ne_success_of_locate {argument : Text} {ending : Ending}
    (h : locate fs argument = .error ending) : ending ≠ .success := by
  rcases bind_eq_error_iff.1 h with hask | ⟨_, -, hdone⟩
  · cases hasked : askAlong (if (FilePath.ofText argument).anchor = .here then .here else .root) []
      (FilePath.ofText argument).parts with
    | ok _ => simp [hasked, mapError_ok] at hask
    | error e =>
      rw [hasked] at hask
      obtain rfl := Except.error.inj hask
      simp
  · cases hdone

theorem ne_success_of_checkConfig {argument : Option Text} {ending : Ending}
    (h : checkConfig fs argument = .error ending) : ending ≠ .success := by
  cases argument with
  | none => cases h
  | some argument =>
    rcases bind_eq_error_iff.1 h with hlocate | ⟨place, -, hfind⟩
    · exact ne_success_of_locate hlocate
    · split at hfind
      · cases hfind
      · obtain rfl := Except.error.inj hfind
        simp

theorem ne_success_of_checkOutput {argument : Text} {ending : Ending}
    (h : checkOutput fs argument = .error ending) : ending ≠ .success := by
  rcases bind_eq_error_iff.1 h with hlocate | ⟨place, -, hfind⟩
  · exact ne_success_of_locate hlocate
  · split at hfind
    · obtain rfl := Except.error.inj hfind
      simp
    · cases hfind

/-- A run that ends with its arguments does not succeed. -/
theorem ne_success_of_prepare {arguments : Arguments} {ending : Ending}
    (h : prepare fs arguments = .error ending) : ending ≠ .success := by
  unfold prepare at h
  extract_lets checks at h
  split at h
  · rcases bind_eq_error_iff.1 h with hhelp | ⟨_, hhelp, -⟩
    · obtain rfl := Except.error.inj hhelp
      simp
    · cases hhelp
  · rcases bind_eq_error_iff.1 h with hconfig | ⟨config, -, h⟩
    · exact ne_success_of_checkConfig hconfig
    split at h
    · obtain rfl := Except.error.inj h
      simp
    · obtain rfl := Except.error.inj h
      simp
    · rcases bind_eq_error_iff.1 h with houtput | ⟨output, -, h⟩
      · exact ne_success_of_checkOutput houtput
      split at h
      · cases h
      · obtain rfl := Except.error.inj h
        simp

/-- **Without a plan** a run writes nothing and does not succeed. -/
theorem run_of_no_plan (h : ∀ plan : Plan, ¬ plan.IsOf env fs list) :
    (run env fs list).2 = fs ∧ (run env fs list).1.ending ≠ .success := by
  unfold run
  split
  · exact ⟨rfl, by simp⟩
  next arguments hparse =>
  split
  · next ending hprepare => exact ⟨rfl, ne_success_of_prepare hprepare⟩
  next job hprepare =>
  have hperform : ∃ e notices, perform env fs job = (.error e, notices, fs) := by
    unfold perform
    split
    · exact ⟨_, _, rfl⟩
    next options hoptions =>
    split
    · exact ⟨_, _, rfl⟩
    next output notices hgenerate =>
    exact absurd ⟨⟨arguments, hparse, hprepare⟩, hoptions,
      generate_fst_eq_ok_iff.1 (by rw [hgenerate])⟩ (h ⟨job, options, output⟩)
  obtain ⟨e, notices, hperform⟩ := hperform
  rw [hperform]
  exact ⟨rfl, by simp⟩

/-! ## All runs -/

theorem exitCode_eq_zero_iff (result : Except WriteError (List FilePath)) {report : Report}
    (h : report.ending = endingOf result) :
    report.exitCode = 0 ↔ ∃ paths, result = .ok paths := by
  rw [Report.exitCode, h]
  cases result with
  | error e => simp [endingOf]
  | ok paths => simp [endingOf]

/-- **What a run writes.** Where the arguments, the configuration or the schema are refused, or the
schema is not compiled, nothing changes. Else, if files are written aside under new names, some
first ones of the generated files are written, all of them exactly when the run succeeds, and
nothing else: the file that fails keeps its content, and no temporary file is left. -/
theorem run_writes_first (env : Environment) (fs : FileSystem) (list : List Text) :
    ((∀ plan : Plan, ¬ plan.IsOf env fs list) →
      (run env fs list).2 = fs ∧ (run env fs list).1.ending ≠ .success) ∧
    ∀ plan : Plan, plan.IsOf env fs list → plan.options.output.atomic.isTruthy = true →
      env.writer.HasFreshNames fs plan.folder plan.output.files →
      ∃ k, Writer.WroteFirst fs plan.folder plan.output.files k (run env fs list).2 ∧
        ((run env fs list).1.exitCode = 0 ↔ k = plan.output.files.length) ∧
        (∀ file, plan.output.files[k]? = some file →
          (∀ earlier ∈ plan.output.files.take k,
            placeOf fs plan.folder earlier ≠ placeOf fs plan.folder file) →
          (run env fs list).2.file? (placeOf fs plan.folder file) =
            fs.file? (placeOf fs plan.folder file)) ∧
        ∀ file ∈ plan.output.files,
          (∀ earlier ∈ plan.output.files.take k, placeOf fs plan.folder earlier ≠
            env.writer.temporaryPlace fs (plan.folder.join file.name)) →
          (run env fs list).2.file?
            (env.writer.temporaryPlace fs (plan.folder.join file.name)) = none := by
  refine ⟨run_of_no_plan, fun plan hplan hatomic hfresh => ?_⟩
  obtain ⟨hfiles, hending⟩ := run_of_plan hplan
  obtain ⟨k, hfirst, hall⟩ := Writer.exists_wroteFirst_of_writeAll hatomic hfresh
  rw [← hfiles] at hfirst
  refine ⟨k, hfirst, (exitCode_eq_zero_iff _ hending).trans hall, ?_, ?_⟩
  · intro file hfile haway
    rw [hfirst.files, Writer.filesAfter_of_ne haway]
  · intro file hfile haway
    rw [hfirst.files, Writer.filesAfter_of_ne haway, hfresh.free file hfile]

/-- The bytes of a file with a text. -/
def bytesOf (s : String) : List UInt8 := s.toList.flatMap String.utf8EncodeChar

/-- A working directory with a configuration that refuses to overwrite files, a schema of two
enumerations, and a file in the way of the second. -/
def guarded : FileSystem :=
  ⟨["work"], .directory [("work", .directory
    [("config.json", .file (bytesOf "\x7b\"output\":\x7b\"mode\":\"error\"\x7d\x7d")),
      ("schema.json", .file (bytesOf
        ("[\x7b\"type\":\"enum\",\"name\":\"Color\",\"items\":[\"RED\"]\x7d," ++
          "\x7b\"type\":\"enum\",\"name\":\"Size\",\"items\":[]\x7d]"))),
      ("out", .directory [("ts-model", .directory [("enum", .directory
        [("Size.ts", .file (bytesOf "// by hand"))])])])])]⟩

/-- No web address can be reached. -/
def offline : Environment := ⟨fun _ => .error "offline", "k3x9w_2q", "strings"⟩

/-- The arguments of a run with that configuration and that schema. -/
def guardedArguments : List Text := ["-c", "config.json", "schema.json", "out"]

/-- The schema in that directory. -/
def colorsAndSizes : Schema :=
  [.enumeration ⟨.text "Color", .list [.text "RED"]⟩, .enumeration ⟨.text "Size", .list []⟩]

/-- What that run comes to. -/
def guardedPlan : Plan where
  job := ⟨some ["work", "config.json"], none, "schema.json", ["work", "out"]⟩
  options := { output := { mode := .refuse } }
  output := ((colorsAndSizes.compile ["work"]
    { output := { mode := .refuse } }).1.toOption).getD {}

theorem guardedPlan_isOf : guardedPlan.IsOf offline guarded guardedArguments where
  job := ⟨{ config := some "config.json", positional := ["schema.json", "out"] },
    by decide +kernel, by decide +kernel⟩
  options := by decide +kernel
  output := ⟨colorsAndSizes, by decide +kernel, by decide +kernel⟩

theorem run_writes_first_guarded :
    guardedPlan.IsOf offline guarded guardedArguments ∧
      guardedPlan.options.output.atomic.isTruthy = true ∧
      offline.writer.HasFreshNames guarded guardedPlan.folder guardedPlan.output.files ∧
      (run offline guarded guardedArguments).1.exitCode = 1 ∧
      ∃ k, Writer.WroteFirst guarded guardedPlan.folder guardedPlan.output.files k
        (run offline guarded guardedArguments).2 ∧ k ≠ guardedPlan.output.files.length := by
  have hfresh : offline.writer.HasFreshNames guarded guardedPlan.folder guardedPlan.output.files :=
    ⟨by decide +kernel, by decide +kernel⟩
  have hexit : (run offline guarded guardedArguments).1.exitCode = 1 := by decide +kernel
  obtain ⟨k, hfirst, hall, -, -⟩ :=
    (run_writes_first offline guarded guardedArguments).2 guardedPlan guardedPlan_isOf rfl hfresh
  refine ⟨guardedPlan_isOf, rfl, hfresh, hexit, k, hfirst, fun hk => ?_⟩
  rw [← hall, hexit] at hk
  cases hk

end SchemaScribe.CommandLine
