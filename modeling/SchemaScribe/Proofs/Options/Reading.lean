import SchemaScribe.Options
import SchemaScribe.Proofs.Occurrence
import SchemaScribe.Proofs.Success

/-!
# What a configuration says

A configuration object gives values to some of the options and leaves all others at their defaults
(`Reads`). Main statement: `ofJson_object`, by which reading an object gives exactly the options
that it says, wherever its members stand and whatever else is among them; writing the options and
reading them again gives them back; and an object is refused for its first member whose value does
not fit, and only for such a member.

A member changes at most the option of its name (`Sets`), so each option is followed through the
members by itself (`reads_of_setAll`).
-/

namespace SchemaScribe

open Json (member?)

/-! ## What a value spells -/

/-- The style that a value spells: by its word, or by a Boolean. -/
inductive SpellsStyle : Json → ModelStyle → Prop
  | on : SpellsStyle (.text "on") .decorated
  | off : SpellsStyle (.text "off") .plain
  | true : SpellsStyle (.bool true) .decorated
  | false : SpellsStyle (.bool false) .plain

/-- The mode that a value spells, by its word. -/
inductive SpellsMode : Json → ConflictMode → Prop
  | force : SpellsMode (.text "force") .overwrite
  | error : SpellsMode (.text "error") .refuse

/-- What members say of an option: they give a value under its name, which `R` relates to the
option, or the option has its default. -/
def Settles {α : Type} (members : List (Text × Json)) (name : Text) (R : Json → α → Prop)
    (default a : α) : Prop :=
  match member? members name with
  | some x => R x a
  | none => a = default

/-- The options of output that an object spells; what it does not give has its default. -/
inductive SpellsOutput : Json → OutputOptions → Prop
  | object {members : List (Text × Json)} {output : OutputOptions}
      (mode : Settles members "mode" SpellsMode .overwrite output.mode)
      (atomic : Settles members "atomic_write" Eq (.bool true) output.atomic) :
      SpellsOutput (.object members) output

variable {x : Json} {members rest : List (Text × Json)} {name : Text} {e : OptionsError}

theorem ModelStyle.ofJson_eq_ok_iff {style : ModelStyle} :
    ofJson x = .ok style ↔ SpellsStyle x style := by
  constructor
  · intro h
    unfold ofJson at h
    split at h
    · cases h; exact .true
    · cases h; exact .false
    · split at h
      · next hon => cases h; exact hon ▸ .on
      · split at h
        · next hoff => cases h; exact hoff ▸ .off
        · cases h
  · rintro (_ | _ | _ | _) <;> decide

theorem ModelStyle.ofJson_eq_error_iff :
    ofJson x = .error e ↔ (∀ style, ¬ SpellsStyle x style) ∧ e = .badStyle x := by
  simp only [← ofJson_eq_ok_iff]
  unfold ofJson
  split
  · simp
  · simp
  · split
    · simp
    · split
      · simp
      · simp [eq_comm]

theorem ConflictMode.ofJson_eq_ok_iff {mode : ConflictMode} :
    ofJson x = .ok mode ↔ SpellsMode x mode := by
  constructor
  · intro h
    unfold ofJson at h
    split at h
    · next hforce => cases h; exact hforce ▸ .force
    · split at h
      · next herror => cases h; exact herror ▸ .error
      · cases h
  · rintro (_ | _) <;> decide

theorem ConflictMode.ofJson_eq_error_iff :
    ofJson x = .error e ↔ (∀ mode, ¬ SpellsMode x mode) ∧ e = .badMode x := by
  simp only [← ofJson_eq_ok_iff]
  unfold ofJson
  split
  · simp
  · split
    · simp
    · simp [eq_comm]

/-! ## What members say -/

section Settles

variable {α : Type} {R : Json → α → Prop} {default a b : α} {other : Text}

theorem settles_singleton_iff :
    Settles [(other, x)] name R default a ↔ if other = name then R x a else a = default := by
  by_cases h : other = name <;> simp [Settles, member?, Entries.get?, h]

/-- What the first member and the others say one after the other, they say together. -/
theorem Settles.cons (h : Settles [(other, x)] name R default b) (hrest : Settles rest name R b a)
    (hother : other ∉ Entries.keys rest) : Settles ((other, x) :: rest) name R default a := by
  by_cases hname : other = name
  · subst hname
    have hnone : member? rest other = none := by
      rwa [member?, ← Option.not_isSome_iff_eq_none, Entries.get?_isSome_iff]
    rw [Settles, hnone] at hrest
    subst hrest
    simpa [Settles, member?, Entries.get?] using h
  · rw [settles_singleton_iff, if_neg hname] at h
    subst h
    simpa [Settles, member?, Entries.get?, hname] using hrest

theorem Settles.unique (hR : ∀ x a b, R x a → R x b → a = b) (ha : Settles members name R default a)
    (hb : Settles members name R default b) : a = b := by
  unfold Settles at ha hb
  split at ha
  · next hx => rw [hx] at hb; exact hR _ _ _ ha hb
  · next hx => rw [hx] at hb; exact ha.trans hb.symm

theorem Settles.congr {others : List (Text × Json)} (h : member? others name = member? members name)
    (ha : Settles members name R default a) : Settles others name R default a := by
  unfold Settles
  rw [h]
  exact ha

end Settles

/-- An option that may have any value has the one that is given. -/
theorem settles_eq_iff {default a : Json} :
    Settles members name Eq default a ↔ a = (member? members name).getD default := by
  unfold Settles
  cases member? members name with
  | none => rfl
  | some x => exact eq_comm

namespace OutputOptions

/-- The mode of the members of an output object. -/
def modeOf (members : List (Text × Json)) : Except OptionsError ConflictMode :=
  match member? members "mode" with
  | some x => ConflictMode.ofJson x
  | none => .ok .overwrite

theorem modeOf_eq_ok_iff {mode : ConflictMode} :
    modeOf members = .ok mode ↔ Settles members "mode" SpellsMode .overwrite mode := by
  unfold modeOf Settles
  cases member? members "mode" with
  | none => simp [eq_comm]
  | some x => exact ConflictMode.ofJson_eq_ok_iff

theorem modeOf_eq_error_iff : modeOf members = .error e ↔
    ∃ x, member? members "mode" = some x ∧ (∀ mode, ¬ SpellsMode x mode) ∧ e = .badMode x := by
  unfold modeOf
  cases member? members "mode" with
  | none => simp
  | some x => simp [ConflictMode.ofJson_eq_error_iff]

theorem ofJson_of_members (members : List (Text × Json)) :
    ofJson (.object members) = (do
      let mode ← modeOf members
      return { mode, atomic := (member? members "atomic_write").getD (.bool true) }) := by
  cases hmode : member? members "mode" <;> simp only [ofJson, modeOf, hmode]

theorem ofJson_eq_ok_iff {output : OutputOptions} :
    ofJson x = .ok output ↔ SpellsOutput x output := by
  constructor
  · intro h
    cases x with
    | object members =>
      rw [ofJson_of_members] at h
      obtain ⟨mode, hmode, h⟩ := bind_eq_ok_iff.1 h
      obtain rfl := pure_eq_ok_iff.1 h
      exact .object (modeOf_eq_ok_iff.1 hmode) (settles_eq_iff.2 rfl)
    | _ => cases h
  · rintro ⟨hmode, hatomic⟩
    rw [ofJson_of_members]
    refine bind_eq_ok_iff.2 ⟨_, modeOf_eq_ok_iff.2 hmode, ?_⟩
    rw [pure_eq_ok_iff, ← settles_eq_iff.1 hatomic]

theorem ofJson_eq_error_iff : ofJson x = .error e ↔
    (∀ members, x ≠ .object members) ∧ e = .outputNotAnObject x ∨
      ∃ members y, x = .object members ∧ member? members "mode" = some y ∧
        (∀ mode, ¬ SpellsMode y mode) ∧ e = .badMode y := by
  cases x with
  | object members =>
    rw [ofJson_of_members, bind_eq_error_iff, modeOf_eq_error_iff]
    simp [pure, Except.pure]
  | _ => simp [ofJson, eq_comm]

end OutputOptions

/-! ## A value spells one thing -/

theorem SpellsStyle.unique {style style' : ModelStyle} (h : SpellsStyle x style)
    (h' : SpellsStyle x style') : style = style' :=
  Except.ok.inj ((ModelStyle.ofJson_eq_ok_iff.2 h).symm.trans (ModelStyle.ofJson_eq_ok_iff.2 h'))

theorem SpellsOutput.unique {output output' : OutputOptions} (h : SpellsOutput x output)
    (h' : SpellsOutput x output') : output = output' :=
  Except.ok.inj
    ((OutputOptions.ofJson_eq_ok_iff.2 h).symm.trans (OutputOptions.ofJson_eq_ok_iff.2 h'))

namespace Options

/-- The names of all options. -/
def optionNames : List Text :=
  ["annotation_mode", "output_root", "table_folder", "enum_folder", "file_extension",
    "relation_field_prefix", "indent", "allow_duplicate_names", "output"]

/-- **What members say** of the options `base`. Each option has the value that is given for it, and
that which it has in `base` where none is. -/
structure Reads (base : Options) (members : List (Text × Json)) (options : Options) : Prop where
  style : Settles members "annotation_mode" SpellsStyle base.style options.style
  outputRoot : Settles members "output_root" Eq base.outputRoot options.outputRoot
  tableFolder : Settles members "table_folder" Eq base.tableFolder options.tableFolder
  enumFolder : Settles members "enum_folder" Eq base.enumFolder options.enumFolder
  fileExtension : Settles members "file_extension" Eq base.fileExtension options.fileExtension
  relationPrefix :
    Settles members "relation_field_prefix" Eq base.relationPrefix options.relationPrefix
  indent : Settles members "indent" Eq base.indent options.indent
  allowDuplicates :
    Settles members "allow_duplicate_names" Eq base.allowDuplicates options.allowDuplicates
  output : Settles members "output" SpellsOutput base.output options.output

/-- A member is refused: the value does not fit the option of its name. -/
inductive Refused : Text → Json → OptionsError → Prop
  | style {x : Json} (h : ∀ style, ¬ SpellsStyle x style) :
      Refused "annotation_mode" x (.badStyle x)
  | output {x : Json} (h : ∀ members, x ≠ .object members) :
      Refused "output" x (.outputNotAnObject x)
  | mode {members : List (Text × Json)} {x : Json} (hmode : member? members "mode" = some x)
      (h : ∀ mode, ¬ SpellsMode x mode) : Refused "output" (.object members) (.badMode x)

/-- A member is refused for its value, never for what the document is. -/
theorem Refused.ne_notAnObject (h : Refused name x e) (typeName : String) :
    e ≠ .notAnObject typeName := by
  rintro rfl
  cases h

/-! ## One member -/

/-- What a member does to the options, if it is not refused. -/
inductive Sets (options : Options) : Text → Json → Options → Prop
  | style {x : Json} {style : ModelStyle} (h : SpellsStyle x style) :
      Sets options "annotation_mode" x { options with style }
  | outputRoot (x : Json) : Sets options "output_root" x { options with outputRoot := x }
  | tableFolder (x : Json) : Sets options "table_folder" x { options with tableFolder := x }
  | enumFolder (x : Json) : Sets options "enum_folder" x { options with enumFolder := x }
  | fileExtension (x : Json) : Sets options "file_extension" x { options with fileExtension := x }
  | relationPrefix (x : Json) :
      Sets options "relation_field_prefix" x { options with relationPrefix := x }
  | indent (x : Json) : Sets options "indent" x { options with indent := x }
  | allowDuplicates (x : Json) :
      Sets options "allow_duplicate_names" x { options with allowDuplicates := x }
  | output {x : Json} {output : OutputOptions} (h : SpellsOutput x output) :
      Sets options "output" x { options with output }
  | other {name : Text} (x : Json) (h : name ∉ optionNames) : Sets options name x options

variable {options options' : Options}

theorem set_of_not_mem (options : Options) (x : Json) (h : name ∉ optionNames) :
    options.set name x = .ok options := by
  unfold set
  split
  all_goals first
    | rfl
    | next hname => exact absurd (Text.toString?_eq_some_iff.1 hname ▸ by decide) h

/-- **One member** does what its name and its value say. -/
theorem set_eq_ok_iff : options.set name x = .ok options' ↔ Sets options name x options' := by
  constructor
  · intro h
    by_cases hname : name ∈ optionNames
    · simp only [optionNames, List.mem_cons, List.not_mem_nil, or_false] at hname
      rcases hname with rfl | rfl | rfl | rfl | rfl | rfl | rfl | rfl | rfl
      · obtain ⟨style, hstyle, h⟩ := bind_eq_ok_iff.1 h
        cases h
        exact .style (ModelStyle.ofJson_eq_ok_iff.1 hstyle)
      · cases h; exact .outputRoot x
      · cases h; exact .tableFolder x
      · cases h; exact .enumFolder x
      · cases h; exact .fileExtension x
      · cases h; exact .relationPrefix x
      · cases h; exact .indent x
      · cases h; exact .allowDuplicates x
      · obtain ⟨output, houtput, h⟩ := bind_eq_ok_iff.1 h
        cases h
        exact .output (OutputOptions.ofJson_eq_ok_iff.1 houtput)
    · rw [set_of_not_mem options x hname] at h
      cases h
      exact .other x hname
  · intro h
    cases h with
    | style h => exact bind_eq_ok_iff.2 ⟨_, ModelStyle.ofJson_eq_ok_iff.2 h, rfl⟩
    | output h => exact bind_eq_ok_iff.2 ⟨_, OutputOptions.ofJson_eq_ok_iff.2 h, rfl⟩
    | other x h => exact set_of_not_mem options x h
    | _ => rfl

theorem set_eq_error_iff : options.set name x = .error e ↔ Refused name x e := by
  constructor
  · intro h
    by_cases hname : name ∈ optionNames
    · simp only [optionNames, List.mem_cons, List.not_mem_nil, or_false] at hname
      rcases hname with rfl | rfl | rfl | rfl | rfl | rfl | rfl | rfl | rfl
      · rcases bind_eq_error_iff.1 h with h | ⟨style, -, h⟩
        · obtain ⟨hx, rfl⟩ := ModelStyle.ofJson_eq_error_iff.1 h
          exact .style hx
        · cases h
      iterate 7 cases h
      · rcases bind_eq_error_iff.1 h with h | ⟨output, -, h⟩
        · rcases OutputOptions.ofJson_eq_error_iff.1 h with ⟨hx, rfl⟩ | ⟨_, y, rfl, hy, hmode, rfl⟩
          · exact .output hx
          · exact .mode hy hmode
        · cases h
    · rw [set_of_not_mem options x hname] at h
      cases h
  · rintro (hx | hx | ⟨hy, hmode⟩)
    · exact bind_eq_error_iff.2 (.inl (ModelStyle.ofJson_eq_error_iff.2 ⟨hx, rfl⟩))
    · exact bind_eq_error_iff.2 (.inl (OutputOptions.ofJson_eq_error_iff.2 (.inl ⟨hx, rfl⟩)))
    · exact bind_eq_error_iff.2 (.inl
        (OutputOptions.ofJson_eq_error_iff.2 (.inr ⟨_, _, rfl, hy, hmode, rfl⟩)))

/-- A member says something of the option of its name only. -/
theorem Sets.reads (h : Sets options name x options') : Reads options [(name, x)] options' := by
  cases h with
  | other x h =>
    have hne : ∀ {n}, n ∈ optionNames → name ≠ n := fun hn heq => h (heq ▸ hn)
    constructor <;> rw [settles_singleton_iff, if_neg (hne (by decide))]
  | style h | output h =>
    constructor <;> rw [settles_singleton_iff] <;> first
      | rw [if_neg (by decide)]
      | rwa [if_pos rfl]
  | _ =>
    constructor <;> rw [settles_singleton_iff] <;> first
      | rw [if_neg (by decide)]
      | rw [if_pos rfl]

/-! ## All members -/

variable {base : Options}

theorem Reads.cons {mid : Options} (h : Reads base [(name, x)] mid) (hrest : Reads mid rest options)
    (hname : name ∉ Entries.keys rest) : Reads base ((name, x) :: rest) options where
  style := h.style.cons hrest.style hname
  outputRoot := h.outputRoot.cons hrest.outputRoot hname
  tableFolder := h.tableFolder.cons hrest.tableFolder hname
  enumFolder := h.enumFolder.cons hrest.enumFolder hname
  fileExtension := h.fileExtension.cons hrest.fileExtension hname
  relationPrefix := h.relationPrefix.cons hrest.relationPrefix hname
  indent := h.indent.cons hrest.indent hname
  allowDuplicates := h.allowDuplicates.cons hrest.allowDuplicates hname
  output := h.output.cons hrest.output hname

/-- **All members** give the options what they say, if no two have one name. -/
theorem reads_of_setAll (hnodup : (Entries.keys members).Nodup)
    (h : setAll base members = .ok options) : Reads base members options := by
  induction members generalizing base with
  | nil =>
    cases h
    constructor <;> rfl
  | cons member rest ih =>
    obtain ⟨hname, hrest⟩ := List.nodup_cons.1 hnodup
    obtain ⟨mid, hset, h⟩ := bind_eq_ok_iff.1 h
    exact (set_eq_ok_iff.1 hset).reads.cons (ih hrest h) hname

/-- The members are refused for the first of them that is refused. -/
theorem setAll_eq_error_iff : setAll base members = .error e ↔
    ∃ before name x after, members = before ++ (name, x) :: after ∧
      (∀ m ∈ before, ∀ e, ¬ Refused m.1 m.2 e) ∧ Refused name x e := by
  constructor
  · intro h
    induction members generalizing base with
    | nil => cases h
    | cons member rest ih =>
      obtain ⟨name, x⟩ := member
      rcases bind_eq_error_iff.1 h with hset | ⟨mid, hset, h⟩
      · exact ⟨[], name, x, rest, rfl, nofun, set_eq_error_iff.1 hset⟩
      · obtain ⟨before, name', y, after, rfl, hbefore, hy⟩ := ih h
        refine ⟨(name, x) :: before, name', y, after, rfl, ?_, hy⟩
        refine List.forall_mem_cons.2 ⟨fun e hrefused => ?_, hbefore⟩
        cases hset.symm.trans (set_eq_error_iff.2 hrefused)
  · rintro ⟨before, name, x, after, rfl, hbefore, hx⟩
    induction before generalizing base with
    | nil => exact bind_eq_error_iff.2 (.inl (set_eq_error_iff.2 hx))
    | cons member rest ih =>
      obtain ⟨hmember, hrest⟩ := List.forall_mem_cons.1 hbefore
      cases hset : base.set member.1 member.2 with
      | error e => exact absurd (set_eq_error_iff.1 hset) (hmember e)
      | ok mid => exact bind_eq_error_iff.2 (.inr ⟨mid, hset, ih hrest⟩)

/-- Members that are no options say nothing, wherever they stand. -/
theorem setAll_filter (base : Options) (members : List (Text × Json)) :
    setAll base (members.filter fun m => m.1 ∈ optionNames) = setAll base members := by
  induction members generalizing base with
  | nil => rfl
  | cons member rest ih =>
    by_cases h : member.1 ∈ optionNames
    · rw [List.filter_cons_of_pos (by simpa using h), setAll, setAll]
      simp only [ih]
    · rw [List.filter_cons_of_neg (by simpa using h), setAll, set_of_not_mem base _ h, ih]
      rfl

/-! ## What is said decides the options -/

/-- What members say decides all options. -/
theorem Reads.unique (h : Reads base members options) (h' : Reads base members options') :
    options = options' := by
  have hany : ∀ x a b : Json, x = a → x = b → a = b := fun _ _ _ ha hb => ha.symm.trans hb
  cases options
  cases options'
  rw [Options.mk.injEq]
  exact ⟨h.style.unique (fun _ _ _ ha hb => ha.unique hb) h'.style,
    h.outputRoot.unique hany h'.outputRoot, h.tableFolder.unique hany h'.tableFolder,
    h.enumFolder.unique hany h'.enumFolder, h.fileExtension.unique hany h'.fileExtension,
    h.relationPrefix.unique hany h'.relationPrefix, h.indent.unique hany h'.indent,
    h.allowDuplicates.unique hany h'.allowDuplicates,
    h.output.unique (fun _ _ _ ha hb => ha.unique hb) h'.output⟩

/-- Members with the same values say the same. -/
theorem Reads.congr {others : List (Text × Json)}
    (hothers : ∀ name, member? others name = member? members name)
    (h : Reads base members options) : Reads base others options where
  style := h.style.congr (hothers _)
  outputRoot := h.outputRoot.congr (hothers _)
  tableFolder := h.tableFolder.congr (hothers _)
  enumFolder := h.enumFolder.congr (hothers _)
  fileExtension := h.fileExtension.congr (hothers _)
  relationPrefix := h.relationPrefix.congr (hothers _)
  indent := h.indent.congr (hothers _)
  allowDuplicates := h.allowDuplicates.congr (hothers _)
  output := h.output.congr (hothers _)

/-- Of members with different names, each is found by its own. -/
theorem member?_eq_some_iff (hnodup : (Entries.keys members).Nodup) :
    member? members name = some x ↔ (name, x) ∈ members := by
  have hfind := Entries.get?_map members Prod.fst Prod.snd name
  rw [List.map_id'' fun _ => rfl] at hfind
  rw [member?, hfind, Option.map_eq_some_iff]
  constructor
  · rintro ⟨m, hm, rfl⟩
    obtain ⟨hmem, rfl⟩ := (find?_eq_some_iff_of_nodup hnodup).1 hm
    exact hmem
  · exact fun hmem => ⟨(name, x), (find?_eq_some_iff_of_nodup hnodup).2 ⟨hmem, rfl⟩, rfl⟩

theorem member?_eq_of_perm {others : List (Text × Json)} (hnodup : (Entries.keys members).Nodup)
    (h : members.Perm others) (name : Text) : member? others name = member? members name := by
  have hothers : (Entries.keys others).Nodup := (h.map Prod.fst).nodup_iff.1 hnodup
  ext x
  rw [member?_eq_some_iff hothers, member?_eq_some_iff hnodup, h.mem_iff]

/-- Members are accepted unless one of them is refused. -/
theorem exists_setAll_iff : (∃ options, setAll base members = .ok options) ↔
    ∀ m ∈ members, ∀ e, ¬ Refused m.1 m.2 e := by
  induction members generalizing base with
  | nil => exact iff_of_true ⟨base, rfl⟩ nofun
  | cons member rest ih =>
    rw [List.forall_mem_cons]
    constructor
    · rintro ⟨options, h⟩
      obtain ⟨mid, hset, h⟩ := bind_eq_ok_iff.1 h
      refine ⟨fun e hrefused => ?_, ih.1 ⟨options, h⟩⟩
      cases hset.symm.trans (set_eq_error_iff.2 hrefused)
    · rintro ⟨hmember, hrest⟩
      cases hset : base.set member.1 member.2 with
      | error e => exact absurd (set_eq_error_iff.1 hset) (hmember e)
      | ok mid =>
        obtain ⟨options, h⟩ := ih.2 hrest
        exact ⟨options, bind_eq_ok_iff.2 ⟨mid, hset, h⟩⟩

/-- Members are accepted with the options that they say, and no other. -/
theorem setAll_eq_ok_iff (hnodup : (Entries.keys members).Nodup) :
    setAll base members = .ok options ↔
      Reads base members options ∧ ∀ m ∈ members, ∀ e, ¬ Refused m.1 m.2 e := by
  constructor
  · exact fun h => ⟨reads_of_setAll hnodup h, exists_setAll_iff.1 ⟨options, h⟩⟩
  · rintro ⟨hreads, haccepted⟩
    obtain ⟨options', h⟩ := exists_setAll_iff.2 haccepted
    rw [h, (reads_of_setAll hnodup h).unique hreads]

theorem spellsStyle_word (style : ModelStyle) : SpellsStyle (.text style.word) style := by
  cases style with
  | decorated => exact .on
  | plain => exact .off

theorem spellsMode_word (mode : ConflictMode) : SpellsMode (.text mode.word) mode := by
  cases mode with
  | overwrite => exact .force
  | refuse => exact .error

/-- **Round trip**: options that are written and read again are the same. -/
theorem ofJson_toJson (options : Options) : ofJson options.toJson = .ok options := by
  have houtput : SpellsOutput (.object [("mode", .text options.output.mode.word),
      ("atomic_write", options.output.atomic)]) options.output :=
    .object (spellsMode_word _) rfl
  refine bind_eq_ok_iff.2 ⟨_, set_eq_ok_iff.2 (.style (spellsStyle_word options.style)), ?_⟩
  iterate 7 refine bind_eq_ok_iff.2 ⟨_, rfl, ?_⟩
  exact bind_eq_ok_iff.2 ⟨_, set_eq_ok_iff.2 (.output houtput), rfl⟩

/-- **What a configuration object comes to.** It is read to exactly the options that its members
say, unless one of them is refused, and then it is refused for the first of these. The options are
given back by what is written of them; they do not depend on the order of the members, nor on
members that are no options. -/
theorem ofJson_object (hnodup : (Entries.keys members).Nodup) :
    (∀ options, ofJson (.object members) = .ok options ↔
      Reads {} members options ∧ ∀ m ∈ members, ∀ e, ¬ Refused m.1 m.2 e) ∧
    (∀ options, ofJson (.object members) = .ok options →
      ofJson options.toJson = .ok options ∧
      ∀ others, members.Perm others → ofJson (.object others) = .ok options) ∧
    ofJson (.object (members.filter fun m => m.1 ∈ optionNames)) = ofJson (.object members) ∧
    ((∃ e, ofJson (.object members) = .error e) ↔ ∃ m ∈ members, ∃ e, Refused m.1 m.2 e) ∧
    ∀ e, ofJson (.object members) = .error e →
      (∀ typeName, e ≠ .notAnObject typeName) ∧
      ∃ before name x after, members = before ++ (name, x) :: after ∧
        (∀ m ∈ before, ∀ e, ¬ Refused m.1 m.2 e) ∧ Refused name x e := by
  refine ⟨fun options => setAll_eq_ok_iff hnodup, fun options h => ⟨ofJson_toJson options, ?_⟩,
    setAll_filter {} members, ?_, fun e h => ?_⟩
  · intro others hperm
    obtain ⟨hreads, haccepted⟩ := (setAll_eq_ok_iff hnodup).1 h
    refine (setAll_eq_ok_iff ((hperm.map Prod.fst).nodup_iff.1 hnodup)).2 ⟨?_, ?_⟩
    · exact hreads.congr (member?_eq_of_perm hnodup hperm)
    · exact fun m hm => haccepted m (hperm.mem_iff.2 hm)
  · rw [← not_ok_iff]
    refine (not_congr exists_setAll_iff).trans ?_
    push Not
    rfl
  · obtain ⟨before, name, x, after, hmembers, hbefore, hx⟩ := setAll_eq_error_iff.1 h
    exact ⟨hx.ne_notAnObject, before, name, x, after, hmembers, hbefore, hx⟩

/-- A configuration with members out of order, one of which is no option. -/
def strictMembers : List (Text × Json) :=
  [("output", .object [("mode", .text "error")]), ("to_dict", .int 1), ("indent", .text "\t"),
    ("annotation_mode", .bool false)]

/-- The options that it says. -/
def strict : Options :=
  { style := .plain, indent := .text "\t", output := { mode := .refuse } }

theorem ofJson_object_strict :
    (Entries.keys strictMembers).Nodup ∧ Reads {} strictMembers strict ∧
      ofJson strict.toJson = .ok strict ∧ ofJson (.object strictMembers.reverse) = .ok strict ∧
      ofJson (.object (strictMembers.filter fun m => m.1 ∈ optionNames)) = .ok strict := by
  have hnodup : (Entries.keys strictMembers).Nodup := by decide
  have hread : ofJson (.object strictMembers) = .ok strict := by decide
  obtain ⟨hreads, hsame, hfilter, -, -⟩ := ofJson_object hnodup
  obtain ⟨hround, hperm⟩ := hsame strict hread
  exact ⟨hnodup, ((hreads strict).1 hread).1, hround, hperm _ (List.reverse_perm _).symm,
    hfilter.trans hread⟩

end Options

end SchemaScribe
