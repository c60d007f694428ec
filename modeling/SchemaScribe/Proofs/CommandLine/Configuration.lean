import SchemaScribe.Proofs.CommandLine.Plan
import SchemaScribe.Proofs.Json.Limits
import SchemaScribe.Proofs.Options.Reading

/-!
# Runs with a configuration file

A run that is given a configuration file reads it before all else. Either it obtains options from it
and goes on, or it ends there with nothing written (`run_of_config`). What is wrong with the file is
reported but for two failures that escape (`Escapes`): a document that is no object, and containers
that are nested too deep to be read at all.
-/

namespace SchemaScribe.CommandLine

/-- Reads the configuration file at a place. -/
def readConfig (fs : FileSystem) (place : Path.Location) : Except ConfigError Options := do
  let document ← (fs.readJson configLevels (absolutePath place)).mapError .document
  (Options.ofJson document).mapError .options

/-- The options of a configuration, with the style that the arguments ask for. -/
def Job.adjust (job : Job) (options : Options) : Options :=
  match job.annotations with
  | none => options
  | some true => { options with style := .decorated }
  | some false => { options with style := .plain }

/-- A failure to read the configuration file at a place that is not reported. -/
inductive Escapes (fs : FileSystem) (place : Path.Location) : ConfigError → Prop
  | notAnObject {document : Json}
      (hread : fs.readJson configLevels (absolutePath place) = .ok document)
      (h : ∀ members, document ≠ .object members) :
      Escapes fs place (.options (.notAnObject document.typeName))
  | nesting {s : String} {container : Json.Container}
      (hs : fs.readText (absolutePath place) = .ok s)
      (hparse : Json.parseNested configLevels s = .error (.excess (.nesting container))) :
      Escapes fs place (.document (.notJson (.excess (.nesting container))))

variable {env : Environment} {fs : FileSystem} {list : List Text} {arguments : Arguments}
  {job : Job} {place : Path.Location} {e : ConfigError}

/-! ## Reading the file -/

theorem readOptions_of_config (h : job.config = some place) :
    readOptions fs job =
      job.adjust <$> (readConfig fs place).mapError (.config (absolutePath place).toText) := by
  unfold readOptions readConfig Job.adjust
  simp only [h]
  cases fs.readJson configLevels (absolutePath place) with
  | error e => rfl
  | ok document =>
    simp only [mapError_ok, bind, Except.bind]
    cases Options.ofJson document with
    | error e => rfl
    | ok options =>
      cases job.annotations with
      | none => rfl
      | some decorated => cases decorated <;> rfl

/-- Only a document that is no object is refused for what it is. -/
theorem ofJson_eq_notAnObject_iff {document : Json} {typeName : String} :
    Options.ofJson document = .error (.notAnObject typeName) ↔
      (∀ members, document ≠ .object members) ∧ typeName = document.typeName := by
  cases document with
  | object members =>
    refine iff_of_false (fun h => ?_) fun h => h.1 members rfl
    obtain ⟨_, _, _, _, -, -, hrefused⟩ := Options.setAll_eq_error_iff.1 h
    exact hrefused.ne_notAnObject typeName rfl
  | _ => simp [Options.ofJson, eq_comm]

/-- Whatever is wrong with the text of a file, it is not that it holds no JSON. -/
theorem ne_notJson_of_readText {path : FilePath} {fault : DocumentError}
    (h : fs.readText path = .error fault) (e : Json.ReadError) : fault ≠ .notJson e := by
  rcases bind_eq_error_iff.1 h with hread | ⟨bytes, -, h⟩
  · obtain ⟨_, -, rfl⟩ := mapError_eq_error_iff.1 hread
    exact nofun
  · rcases bind_eq_error_iff.1 h with hdecode | ⟨chars, -, h⟩
    · obtain ⟨_, -, rfl⟩ := mapError_eq_error_iff.1 hdecode
      exact nofun
    · cases h

theorem Escapes.not_isReported (h : Escapes fs place e) (path : Text) :
    (Failure.config path e).isReported = false := by
  cases h with
  | notAnObject => rfl
  | nesting => rfl

/-- **Which failures escape**, of all failures to read a configuration file. -/
theorem readConfig_escapes_iff (path : Text) :
    (readConfig fs place = .error e ∧ (Failure.config path e).isReported = false) ↔
      Escapes fs place e := by
  constructor
  · rintro ⟨h, he⟩
    -- All stages but two have only failures that are reported, and `he` excludes those.
    rcases bind_eq_error_iff.1 h with hdocument | ⟨document, hdocument, hoptions⟩
    · obtain ⟨fault, hjson, rfl⟩ := mapError_eq_error_iff.1 hdocument
      rcases bind_eq_error_iff.1 hjson with htext | ⟨s, hs, hparse⟩
      · cases fault with
        | access e => cases he
        | notUtf8 e => cases he
        | notJson e => exact absurd rfl (ne_notJson_of_readText htext e)
      · obtain ⟨refusal, hrefused, rfl⟩ := mapError_eq_error_iff.1 hparse
        rcases refusal with syntaxError | count | container
        · cases he
        · cases he
        · exact .nesting hs hrefused
    · obtain ⟨fault, hfault, rfl⟩ := mapError_eq_error_iff.1 hoptions
      cases fault with
      | notAnObject typeName =>
        obtain ⟨hdocument', rfl⟩ := ofJson_eq_notAnObject_iff.1 hfault
        exact .notAnObject (mapError_eq_ok_iff.1 hdocument) hdocument'
      | badStyle x => cases he
      | badMode x => cases he
      | outputNotAnObject x => cases he
  · intro h
    refine ⟨?_, h.not_isReported path⟩
    cases h with
    | notAnObject hread h =>
      have hrefused := ofJson_eq_notAnObject_iff.2 ⟨h, rfl⟩
      exact bind_eq_error_iff.2 (.inr ⟨_, mapError_eq_ok_iff.2 hread,
        mapError_eq_error_iff.2 ⟨_, hrefused, rfl⟩⟩)
    | nesting hs hparse =>
      have hjson : fs.readJson configLevels (absolutePath place) =
          .error (.notJson (.excess (.nesting _))) :=
        bind_eq_error_iff.2 (.inr ⟨_, hs, mapError_eq_error_iff.2 ⟨_, hparse, rfl⟩⟩)
      exact bind_eq_error_iff.2 (.inl (mapError_eq_error_iff.2 ⟨_, hjson, rfl⟩))

theorem isReported_of_not_escapes (h : readConfig fs place = .error e)
    (he : ¬ Escapes fs place e) (path : Text) : (Failure.config path e).isReported = true :=
  Bool.of_not_eq_false fun hsilent => he ((readConfig_escapes_iff path).1 ⟨h, hsilent⟩)

/-! ## The run -/

/-- What comes after the options does not fail for the configuration. -/
theorem perform_ne_config {options : Options} (h : readOptions fs job = .ok options)
    (path : Text) (e : ConfigError) : (perform env fs job).1 ≠ .error (.config path e) := by
  unfold perform
  rw [h]
  dsimp only
  split
  · next failure notices hgenerate =>
    unfold generate at hgenerate
    split at hgenerate
    · cases hgenerate
      exact nofun
    · next schema _ _ =>
      obtain ⟨hresult, -⟩ := Prod.mk.inj hgenerate
      obtain ⟨_, -, rfl⟩ := mapError_eq_error_iff.1 hresult
      exact nofun
  · next output notices hgenerate =>
    rcases env.writer.writeAll options.output fs output (absolutePath job.output) with
      ⟨result, more, after⟩
    cases result with
    | ok paths => exact nofun
    | error e => exact nofun

/-- How a run ends once its job is done. -/
def endingAfter : Except Failure Unit → Ending
  | .ok _ => .success
  | .error e => .failure e

theorem run_of_prepare (hparse : Arguments.parse list = .ok arguments)
    (hprepare : prepare fs arguments = .ok job) :
    run env fs list =
      (⟨arguments.verbose, (perform env fs job).2.1, endingAfter (perform env fs job).1⟩,
        (perform env fs job).2.2) := by
  unfold run
  simp only [hparse, hprepare]
  rcases perform env fs job with ⟨result, notices, after⟩
  cases result with
  | ok _ => rfl
  | error e => rfl

theorem ending_ne_config {options : Options} (hparse : Arguments.parse list = .ok arguments)
    (hprepare : prepare fs arguments = .ok job) (h : readOptions fs job = .ok options)
    (path : Text) (e : ConfigError) :
    (run env fs list).1.ending ≠ .failure (.config path e) := by
  have hne : (perform env fs job).1 ≠ .error (.config path e) := perform_ne_config h path e
  rw [run_of_prepare hparse hprepare]
  cases hresult : (perform env fs job).1 with
  | ok _ => exact nofun
  | error failure =>
    rintro ⟨⟩
    exact hne hresult

/-- A run whose configuration is refused ends there. -/
theorem run_of_refused_config (hparse : Arguments.parse list = .ok arguments)
    (hprepare : prepare fs arguments = .ok job) (hconfig : job.config = some place)
    (h : readConfig fs place = .error e) :
    run env fs list =
      (⟨arguments.verbose, [], .failure (.config (absolutePath place).toText e)⟩, fs) := by
  have hoptions : readOptions fs job = .error (.config (absolutePath place).toText e) := by
    rw [readOptions_of_config hconfig, h]
    rfl
  rw [run_of_prepare hparse hprepare, perform, hoptions]
  rfl

/-- **A run with a configuration file** obtains options from it and goes on, whatever becomes of it
then; or it ends with status 1 and no file changed. In that case it tells what is wrong with the
file, unless it is one of the failures that escape: the file holds a document that is no object, or
has more opening brackets than there may be levels. -/
theorem run_config (env : Environment) (hparse : Arguments.parse list = .ok arguments)
    (hprepare : prepare fs arguments = .ok job) (hconfig : job.config = some place) :
    (∀ options, readConfig fs place = .ok options →
      readOptions fs job = .ok (job.adjust options) ∧
      ∀ path e, (run env fs list).1.ending ≠ .failure (.config path e)) ∧
    (∀ e, readConfig fs place = .error e →
      (run env fs list).2 = fs ∧ (run env fs list).1.exitCode = 1 ∧
      (run env fs list).1.notices = [] ∧
      (¬ Escapes fs place e → (run env fs list).1.escaped? = none ∧
        (run env fs list).1.verdict? env.folder =
          some ("Invalid config file " ++ (absolutePath place).toText ++ ": " ++
            e.message (absolutePath place).toText)) ∧
      (Escapes fs place e → (run env fs list).1.verdict? env.folder = none ∧
        (run env fs list).1.escaped? = some (.config (absolutePath place).toText e))) ∧
    ∀ e, Escapes fs place e → readConfig fs place = .error e ∧
      ((∃ document, fs.readJson configLevels (absolutePath place) = .ok document ∧
          ∀ members, document ≠ .object members) ∨
        ∃ s, fs.readText (absolutePath place) = .ok s ∧
          configLevels < s.toList.countP Json.isOpening) := by
  refine ⟨fun options h => ?_, fun e h => ?_, fun e h => ?_⟩
  · have hoptions : readOptions fs job = .ok (job.adjust options) := by
      rw [readOptions_of_config hconfig, h]
      rfl
    exact ⟨hoptions, ending_ne_config hparse hprepare hoptions⟩
  · rw [run_of_refused_config hparse hprepare hconfig h]
    refine ⟨rfl, rfl, rfl, fun hreported => ?_, fun hescaped => ?_⟩
    · have htold := isReported_of_not_escapes h hreported (absolutePath place).toText
      simp [Report.escaped?, Report.verdict?, Failure.message, htold]
    · have hsilent := hescaped.not_isReported (absolutePath place).toText
      simp [Report.escaped?, Report.verdict?, hsilent]
  · refine ⟨((readConfig_escapes_iff []).2 h).1, ?_⟩
    cases h with
    | notAnObject hread h => exact .inl ⟨_, hread, h⟩
    | nesting hs hparse =>
      cases Json.exceeds_of_parseNested hparse with
      | nesting h => exact .inr ⟨_, hs, h⟩

/-- A working directory with a configuration file and an empty schema. -/
def configured (content : String) : FileSystem :=
  ⟨["work"], .directory [("work", .directory
    [("config.json", .file (bytesOf content)), ("schema.json", .file (bytesOf "[]"))])]⟩

/-- The job of a run in that directory. -/
def configuredJob : Job :=
  ⟨some ["work", "config.json"], none, "schema.json", ["work", "out"]⟩

/-- The arguments that are given there. -/
def configuredArguments : Arguments :=
  { config := some "config.json", positional := ["schema.json", "out"] }

/-- An output that is no object is told, and nothing is written. -/
theorem run_config_listed_output :
    let fs := configured "\x7b\"output\": []\x7d"
    let report := (run offline fs guardedArguments).1
    Arguments.parse guardedArguments = .ok configuredArguments ∧
      prepare fs configuredArguments = .ok configuredJob ∧
      (run offline fs guardedArguments).2 = fs ∧ report.exitCode = 1 ∧
      report.escaped? = none ∧ report.verdict? offline.folder =
        some "Invalid config file /work/config.json: output must be an object, got []" := by
  intro fs report
  have hparse : Arguments.parse guardedArguments = .ok configuredArguments := by decide +kernel
  have hprepare : prepare fs configuredArguments = .ok configuredJob := by decide +kernel
  have hread : readConfig fs ["work", "config.json"] =
      .error (.options (.outputNotAnObject (.list []))) := by decide +kernel
  obtain ⟨-, hrefused, -⟩ := run_config offline hparse hprepare rfl
  obtain ⟨hfiles, hexit, -, hreported, -⟩ := hrefused _ hread
  obtain ⟨hescaped, htold⟩ := hreported nofun
  exact ⟨hparse, hprepare, hfiles, hexit, hescaped, htold.trans (by decide +kernel)⟩

/-- A document that is no object is not told: its failure escapes. -/
theorem listed_config_escapes :
    let fs := configured "[]"
    let report := (run offline fs guardedArguments).1
    Arguments.parse guardedArguments = .ok configuredArguments ∧
      prepare fs configuredArguments = .ok configuredJob ∧ report.verdict? offline.folder = none ∧
      report.escaped? = some (.config "/work/config.json" (.options (.notAnObject "list"))) := by
  decide +kernel

end SchemaScribe.CommandLine
