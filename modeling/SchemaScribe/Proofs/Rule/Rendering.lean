import SchemaScribe.Model.TypeScript
import SchemaScribe.Proofs.Model.Field
import SchemaScribe.Proofs.Rule.Wording

/-!
# Rules are rendered

The rules of the fields of a model all check something, in the language of the table that there is,
so that they have their decorator lines (`exists_decorators_of_fieldsOfTable`). The body of a model
is made of these lines and the declarations, in both styles (`bodyLines_of_fieldsOfTable`), as
fields of a plain model have no rules.
-/

namespace SchemaScribe

/-- Every rule of a field checks something, in the language that there is. -/
def Field.IsRuled (field : Field) : Prop :=
  ∀ rule ∈ field.rules, rule.check ≠ .unspecified ∧ rule.language = StringTable.language

theorem check_ne_unspecified {type : ColumnType} {check : Check} (h : type.check? = some check) :
    check ≠ .unspecified := by
  cases type with
  | common name =>
    obtain ⟨t, -, rfl⟩ := Option.map_eq_some_iff.1 h
    cases t <;> simp [SqlType.check]
  | relation | other => simp [ColumnType.check?] at h
  | _ =>
    obtain rfl := Option.some.inj h
    simp

/-- Only a column that has a member of an enumeration is checked for one. -/
theorem eq_enumeration_of_check? {type : ColumnType} {members : Name}
    (h : type.check? = some (.member members)) : ∃ name, type = .enumeration name members := by
  cases type with
  | enumeration name others =>
    obtain rfl := Check.member.inj (Option.some.inj h)
    exact ⟨name, rfl⟩
  | common name =>
    obtain ⟨t, -, ht⟩ := Option.map_eq_some_iff.1 h
    cases t <;> simp [SqlType.check] at ht
  | _ => simp [ColumnType.check?] at h

namespace Schema

variable {options : Options} {schema : Schema} {table : Table} {column : Column}
  {fields : List Field} {field : Field}

/-- A field with rules has those for its column, and the type of the column. -/
theorem rules_of_mem_fieldsOf (h : schema.fieldsOf options table column = .ok fields)
    (hfield : field ∈ fields) :
    field.rules = [] ∨ field.rules = options.rulesFor column ∧
      schema.typeOf column.type table.name column.name = .ok field.type := by
  by_cases hrelation : column.type.IsRelation
  · obtain ⟨name, target, key, htype⟩ := hrelation
    obtain ⟨resolved, found, -, -, rfl⟩ := (fieldsOf_relation_eq_ok_iff htype).1 h
    rcases List.mem_cons.1 hfield with rfl | hfield
    · exact .inl rfl
    · obtain rfl := List.mem_singleton.1 hfield
      exact .inl rfl
  · obtain ⟨found, hfound, rfl⟩ := (fieldsOf_eq_ok_iff hrelation).1 h
    obtain rfl := List.mem_singleton.1 hfield
    exact .inr ⟨rfl, hfound⟩

/-- The rules for a column are there in decorated models only, each for the check of the column. -/
theorem mem_rulesFor {rule : Rule} (h : rule ∈ options.rulesFor column) :
    options.annotated = true ∧ ∃ check, column.type.check? = some check ∧
      rule = { check, field := column.name } := by
  unfold Options.rulesFor at h
  split at h
  · next hstyle =>
    obtain ⟨check, hcheck, rfl⟩ := List.mem_map.1 h
    exact ⟨hstyle, check, Option.mem_toList.1 hcheck, rfl⟩
  · cases h

theorem isRuled_of_fieldsOf (h : schema.fieldsOf options table column = .ok fields)
    (hfield : field ∈ fields) : field.IsRuled := by
  intro rule hrule
  rcases rules_of_mem_fieldsOf h hfield with hnone | ⟨hrules, -⟩
  · rw [hnone] at hrule
    cases hrule
  · rw [hrules] at hrule
    obtain ⟨-, check, hcheck, rfl⟩ := mem_rulesFor hrule
    exact ⟨check_ne_unspecified hcheck, rfl⟩

/-- A rule that checks for a member of an enumeration is that of a field of this enumeration. -/
theorem exists_enumeration_of_member (h : schema.fieldsOf options table column = .ok fields)
    (hfield : field ∈ fields) {rule : Rule} (hrule : rule ∈ field.rules) {enumeration : Name}
    (hmember : rule.check = .member enumeration) :
    ∃ name, field.type = .enumeration name ∧ name.key = enumeration.key := by
  rcases rules_of_mem_fieldsOf h hfield with hnone | ⟨hrules, htype⟩
  · rw [hnone] at hrule
    cases hrule
  · rw [hrules] at hrule
    obtain ⟨-, check, hcheck, rfl⟩ := mem_rulesFor hrule
    obtain rfl : check = .member enumeration := hmember
    obtain ⟨typeName, hcolumn⟩ := eq_enumeration_of_check? hcheck
    rw [hcolumn] at htype
    obtain ⟨e, he, hfound⟩ := typeOf_enumeration_eq_ok_iff.1 htype
    exact ⟨e.name, hfound, by simpa using List.find?_some (lookUp_eq_ok_iff.1 he).2⟩

end Schema

namespace TypeScript

theorem exists_decorators {rules : List Rule}
    (h : ∀ rule ∈ rules, rule.check ≠ .unspecified ∧ rule.language = StringTable.language) :
    ∃ lines, decorators rules = .ok lines := by
  induction rules with
  | nil => exact ⟨[], rfl⟩
  | cons rule rest ih =>
    obtain ⟨⟨hcheck, hlanguage⟩, hrest⟩ := List.forall_mem_cons.1 h
    have hlines := Rule.decorators_eq hlanguage hcheck
    obtain ⟨tail, htail⟩ := ih hrest
    exact ⟨_, bind_eq_ok_iff.2 ⟨_, hlines, bind_eq_ok_iff.2 ⟨tail, htail, rfl⟩⟩⟩

/-- A decorator line is one of a rule. -/
theorem exists_rule_of_mem_decorators {rules : List Rule} {lines : List Text}
    (h : decorators rules = .ok lines) {line : Text} (hline : line ∈ lines) :
    ∃ rule ∈ rules, ∃ group, rule.decorators StringTable.all = .ok group ∧ line ∈ group := by
  induction rules generalizing lines with
  | nil =>
    obtain rfl := Except.ok.inj h
    cases hline
  | cons rule rest ih =>
    obtain ⟨group, hgroup, h⟩ := bind_eq_ok_iff.1 h
    obtain ⟨tail, htail, h⟩ := bind_eq_ok_iff.1 h
    obtain rfl := pure_eq_ok_iff.1 h
    rcases List.mem_append.1 hline with hline | hline
    · exact ⟨rule, List.mem_cons_self, group, hgroup, hline⟩
    · obtain ⟨other, hother, found⟩ := ih htail hline
      exact ⟨other, List.mem_cons_of_mem _ hother, found⟩

/-- The lines of fields are those of each. -/
theorem bodyLines_eq {annotated : Bool} {fields : List Field} {linesOf : Field → List Text}
    (h : ∀ field ∈ fields, fieldLines annotated field = .ok (linesOf field)) :
    bodyLines annotated fields = .ok (fields.flatMap linesOf) := by
  induction fields with
  | nil => rfl
  | cons field rest ih =>
    obtain ⟨hfield, hrest⟩ := List.forall_mem_cons.1 h
    rw [bodyLines, hfield, ih hrest, List.flatMap_cons]
    rfl

end TypeScript

namespace Schema

variable {options : Options} {schema : Schema} {table : Table} {fields : List Field}

/-- The rules of all fields of a table can be rendered. -/
theorem exists_decorators_of_fieldsOfTable
    (h : schema.fieldsOfTable options table = .ok fields) :
    ∃ decoratorsOf : Field → List Text, ∀ field ∈ fields,
      TypeScript.decorators field.rules = .ok (decoratorsOf field) := by
  have hfield : ∀ field, ∃ lines, field ∈ fields →
      TypeScript.decorators field.rules = .ok lines := by
    intro field
    by_cases hmem : field ∈ fields
    · obtain ⟨c, -, group, hgroup, hfield⟩ := (mem_fieldsOfColumns h).1 hmem
      obtain ⟨lines, hlines⟩ := TypeScript.exists_decorators (isRuled_of_fieldsOf hgroup hfield)
      exact ⟨lines, fun _ => hlines⟩
    · exact ⟨[], fun h => absurd h hmem⟩
  exact Classical.axiomOfChoice hfield

/-- In a plain model no field has rules. -/
theorem rules_eq_nil_of_plain (hplain : options.annotated = false)
    (h : schema.fieldsOfTable options table = .ok fields) {field : Field}
    (hfield : field ∈ fields) : field.rules = [] := by
  obtain ⟨c, -, group, hgroup, hmem⟩ := (mem_fieldsOfColumns h).1 hfield
  rcases rules_of_mem_fieldsOf hgroup hmem with hnone | ⟨hrules, -⟩
  · exact hnone
  · simp [hrules, Options.rulesFor, hplain]

/-- A decorator line of a field that calls the validator of enumerations names the enumeration of
the field. -/
theorem exists_enumeration_of_prefix (h : schema.fieldsOfTable options table = .ok fields)
    {field : Field} (hfield : field ∈ fields) {lines : List Text}
    (hlines : TypeScript.decorators field.rules = .ok lines) {line : Text} (hline : line ∈ lines)
    (hstart : Rule.memberCall <+: line) :
    ∃ enumeration name, Rule.ChecksMember enumeration line ∧ field.type = .enumeration name ∧
      name.key = enumeration.key := by
  obtain ⟨c, -, group, hgroup, hmem⟩ := (mem_fieldsOfColumns h).1 hfield
  obtain ⟨rule, hrule, rendered, hrendered, hline⟩ :=
    TypeScript.exists_rule_of_mem_decorators hlines hline
  obtain ⟨hcheck, hlanguage⟩ := isRuled_of_fieldsOf hgroup hmem rule hrule
  obtain ⟨enumeration, hmember, hnames⟩ :=
    Rule.exists_member_of_prefix hlanguage hcheck hrendered hline hstart
  obtain ⟨name, htype, hkey⟩ := exists_enumeration_of_member hgroup hmem hrule hmember
  exact ⟨enumeration, name, hnames, htype, hkey⟩

/-- **The body of a model**: for each field the decorators of its rules, then its declaration. -/
theorem bodyLines_of_fieldsOfTable (h : schema.fieldsOfTable options table = .ok fields)
    {decoratorsOf : Field → List Text}
    (hdecorators : ∀ field ∈ fields, TypeScript.decorators field.rules = .ok (decoratorsOf field)) :
    TypeScript.bodyLines options.annotated fields =
      .ok (fields.flatMap fun field =>
        decoratorsOf field ++ [TypeScript.declaration options.annotated field]) := by
  refine TypeScript.bodyLines_eq fun field hfield => ?_
  cases hstyle : options.annotated with
  | true =>
    rw [TypeScript.fieldLines, if_pos rfl, hdecorators field hfield]
    rfl
  | false =>
    have hnone := hdecorators field hfield
    rw [rules_eq_nil_of_plain hstyle h hfield] at hnone
    rw [← Except.ok.inj hnone]
    rfl

end Schema

end SchemaScribe
