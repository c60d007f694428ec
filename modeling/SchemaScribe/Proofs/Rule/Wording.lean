import SchemaScribe.Proofs.Template.Spelling
import SchemaScribe.Rule.Basic

/-!
# The decorators of a rule

The decorator lines of a rule, with the names of its field and its enumeration in their places: a
line for the transform if the check has one, then the line of the validator (`decorators_eq`). The
templates of the table for TypeScript are given by what they spell, and the names of a rule are
put in as they are, into its lines and into its message alike (`exists_isWorded`).

A line that calls the validator of enumerations is that of a rule that checks for a member of an
enumeration, and names this enumeration (`exists_member_of_prefix`).
-/

namespace SchemaScribe

open Template (Part spelling)

/-! ## The table -/

namespace StringTable

/-- The layout of the decorator lines in the TypeScript table. -/
def lineLayout : Json := ((partOr (.object []) typeScript layout).toOption).getD .null

theorem partOr_layout : partOr (.object []) typeScript layout = .ok lineLayout := by
  have hok : (partOr (.object []) typeScript layout).isOk = true := by decide
  obtain ⟨lines, hlines⟩ := isOk_iff.1 hok
  rw [lineLayout, hlines]
  rfl

/-- The transforms in the TypeScript table. -/
def transformTable : Json := ((part typeScript transforms).toOption).getD .null

theorem part_transforms : part typeScript transforms = .ok transformTable := by
  have hok : (part typeScript transforms).isOk = true := by decide
  obtain ⟨table, htable⟩ := isOk_iff.1 hok
  rw [transformTable, htable]
  rfl

/-- What an object has under a key, it mentions. -/
theorem mentions_of_part {members : List (Text × Json)} {key x : Json}
    (h : part (.object members) key = .ok x) : mentions (.object members) key = .ok true := by
  obtain ⟨found, hfound, h⟩ := bind_eq_ok_iff.1 h
  cases found with
  | none => simp at h
  | some y => rw [mentions, hfound]; rfl

/-- The line of a transform as the table lays it out. -/
def transformParts : List Part := [.literal "@Transform(", .value "transform", .literal ")"]

theorem partOr_transformLine :
    partOr transformLine lineLayout "transform_line" = .ok (.text (spelling transformParts)) := by
  decide +kernel

/-- The line of a validator as the table lays it out. -/
def validatorParts : List Part :=
  [.literal "@", .value "validator", .literal "(", .value "arguments",
    .literal "\x7b message: '", .value "error_message", .literal "' \x7d)"]

theorem part_validatorLine :
    part lineLayout (.text "validator_line") = .ok (.text (spelling validatorParts)) := by
  decide +kernel

end StringTable

namespace Check

/-- The validator of a check. -/
def validator : Check → String
  | .integer | .decimal => "IsNumber"
  | .boolean => "IsBoolean"
  | .date => "IsISO8601"
  | .text => "IsString"
  | .member _ => "IsEnum"
  | .unspecified => ""

/-- What the validator is called with, in front of the message. -/
def arguments : Check → Text
  | .integer | .decimal | .date => "\x7b\x7d, "
  | .member enumeration => enumeration.toText ++ Text.ofString ", "
  | .boolean | .text | .unspecified => []

/-- What the validator reports of a field. -/
def complaint (field : Name) : Check → Text
  | .integer => field.toText ++ Text.ofString " must be a number (integer)"
  | .decimal => field.toText ++ Text.ofString " must be a number (decimal)"
  | .boolean => field.toText ++ Text.ofString " must be a boolean"
  | .date => field.toText ++ Text.ofString " must be an ISO8601 date"
  | .text => field.toText ++ Text.ofString " must be a string"
  | .member enumeration =>
    field.toText ++ Text.ofString " must be enum " ++ enumeration.toText
  | .unspecified => []

/-- The arguments of the validator as the table words them. -/
def argumentParts : Check → List Part
  | .integer | .decimal | .date => [.literal "\x7b\x7d, "]
  | .member _ => [.value "enum_name", .literal ", "]
  | .boolean | .text | .unspecified => []

/-- The message of the validator as the table words it. -/
def complaintParts : Check → List Part
  | .integer => [.value "field_name", .literal " must be a number (integer)"]
  | .decimal => [.value "field_name", .literal " must be a number (decimal)"]
  | .boolean => [.value "field_name", .literal " must be a boolean"]
  | .date => [.value "field_name", .literal " must be an ISO8601 date"]
  | .text => [.value "field_name", .literal " must be a string"]
  | .member _ => [.value "field_name", .literal " must be enum ", .value "enum_name"]
  | .unspecified => []

/-- The section of the table for a check. -/
def wording (check : Check) : List (Text × Json) :=
  [("validator", .text (spelling [.literal check.validator])),
    ("arguments", .text (spelling check.argumentParts)),
    ("error_message", .text (spelling check.complaintParts))]

/-- Every check but the unspecified one is worded. -/
theorem part_heading {check : Check} (h : check ≠ .unspecified) :
    StringTable.part StringTable.typeScript (.text check.heading) =
      .ok (.object check.wording) := by
  cases check with
  | unspecified => exact absurd rfl h
  | member enumeration =>
    -- The section does not depend on the enumeration, so that it can be computed.
    have hsection : StringTable.part StringTable.typeScript (.text (member .null).heading) =
        .ok (.object (member .null).wording) := by decide +kernel
    exact hsection
  | _ => decide +kernel

/-- The expression of the transform of a check, as the table words it. -/
def expression? (check : Check) : Option Text :=
  check.transform?.map fun kind =>
    ((StringTable.part StringTable.transformTable (.text kind)).toOption.getD .null).toText

/-- Every transform is in the table. -/
theorem exists_transform {check : Check} {kind : String} (h : check.transform? = some kind) :
    ∃ expression, StringTable.part StringTable.transformTable (.text kind) = .ok expression := by
  cases check with
  | text | member | unspecified => cases h
  | _ =>
    obtain rfl := Option.some.inj h
    exact ⟨_, rfl⟩

end Check

namespace Rule

variable {rule : Rule}

/-! ## Texts -/

theorem find?_isReserved_parameters (rule : Rule) :
    rule.parameters.find? (isReserved ·.1) = none := by
  unfold parameters
  split <;> rfl

theorem table_eq (hlanguage : rule.language = StringTable.language) :
    rule.table StringTable.all = .ok StringTable.typeScript := by
  rw [table, hlanguage]
  rfl

theorem means_field (rule : Rule) :
    Part.Means rule.parameters (.value "field_name") rule.field.toText := by
  refine .value (by decide) ?_
  obtain ⟨check, field, language⟩ := rule
  cases check <;> rfl

theorem means_enumeration (enumeration field : Name) (language : Json) :
    Part.Means (Rule.parameters ⟨.member enumeration, field, language⟩) (.value "enum_name")
      enumeration.toText :=
  .value (by decide) rfl

/-- **One text**: the wording of a rule under a key is what the table spells there. -/
theorem text_eq_of_means (hlanguage : rule.language = StringTable.language)
    (hcheck : rule.check ≠ .unspecified) {key : String} {parts : List Part}
    (hkey : StringTable.part (.object rule.check.wording) (.text key) =
      .ok (.text (spelling parts))) {texts : List Text}
    (hmeans : List.Forall₂ (Part.Means rule.parameters) parts texts) :
    rule.text StringTable.all key = .ok texts.flatten := by
  have hwording := Check.part_heading hcheck
  have hsection : StringTable.mentions StringTable.typeScript (.text rule.check.heading) =
      .ok true := StringTable.mentions_of_part hwording
  have hmentions := StringTable.mentions_of_part hkey
  have hfill : fill rule.parameters (.text (spelling parts)) = .ok (.text texts.flatten) := by
    rw [fill, Template.formatValue, Template.fillTexts, Template.format_spelling hmeans]
    rfl
  simp only [text, string, find?_isReserved_parameters, table_eq hlanguage, hsection, hwording,
    hmentions, hkey, hfill, bind, Except.bind, mapError_ok]
  rfl

theorem text_validator (hlanguage : rule.language = StringTable.language)
    (hcheck : rule.check ≠ .unspecified) :
    rule.text StringTable.all "validator" = .ok (Text.ofString rule.check.validator) := by
  have hmeans : List.Forall₂ (Part.Means rule.parameters) [.literal rule.check.validator]
      [Text.ofString rule.check.validator] := .cons (.literal _) .nil
  rw [text_eq_of_means hlanguage hcheck rfl hmeans, List.flatten_singleton]

theorem text_arguments (hlanguage : rule.language = StringTable.language)
    (hcheck : rule.check ≠ .unspecified) :
    rule.text StringTable.all "arguments" = .ok rule.check.arguments := by
  have hmeans : ∃ texts, List.Forall₂ (Part.Means rule.parameters) rule.check.argumentParts texts ∧
      texts.flatten = rule.check.arguments := by
    obtain ⟨check, field, language⟩ := rule
    cases check with
    | unspecified => exact absurd rfl hcheck
    | boolean | text => exact ⟨[], .nil, rfl⟩
    | member enumeration =>
      exact ⟨[_, _], .cons (means_enumeration ..) (.cons (.literal _) .nil), by
        simp [Check.arguments]⟩
    | _ => exact ⟨[_], .cons (.literal _) .nil, List.flatten_singleton⟩
  obtain ⟨texts, hmeans, htexts⟩ := hmeans
  rw [text_eq_of_means hlanguage hcheck rfl hmeans, htexts]

theorem message_eq (hlanguage : rule.language = StringTable.language)
    (hcheck : rule.check ≠ .unspecified) :
    rule.message StringTable.all = .ok (rule.check.complaint rule.field) := by
  have hmeans : ∃ texts, List.Forall₂ (Part.Means rule.parameters) rule.check.complaintParts texts ∧
      texts.flatten = rule.check.complaint rule.field := by
    have hfield := means_field rule
    obtain ⟨check, field, language⟩ := rule
    cases check with
    | unspecified => exact absurd rfl hcheck
    | member enumeration =>
      exact ⟨[_, _, _], .cons hfield (.cons (.literal _) (.cons (means_enumeration ..) .nil)), by
        simp [Check.complaint]⟩
    | _ =>
      exact ⟨[_, _], .cons hfield (.cons (.literal _) .nil), by simp [Check.complaint]⟩
  obtain ⟨texts, hmeans, htexts⟩ := hmeans
  rw [message, text_eq_of_means hlanguage hcheck rfl hmeans, htexts]

/-! ## Lines -/

/-- The line of the transform by an expression. -/
def transformText (expression : Text) : Text :=
  Text.ofString "@Transform(" ++ expression ++ Text.ofString ")"

/-- The line of a validator that is called with the arguments and reports the message. -/
def callText (validator : String) (arguments message : Text) : Text :=
  Text.ofString "@" ++ Text.ofString validator ++ Text.ofString "(" ++ arguments ++
    Text.ofString "\x7b message: '" ++ message ++ Text.ofString "' \x7d)"

/-- There is a line for the transform exactly when the check has one. -/
theorem transformLines_eq (rule : Rule) :
    rule.transformLines StringTable.typeScript StringTable.lineLayout =
      .ok (rule.check.expression?.map transformText).toList := by
  unfold transformLines Check.expression?
  cases hkind : rule.check.transform? with
  | none => rfl
  | some kind =>
    obtain ⟨expression, hexpression⟩ := Check.exists_transform hkind
    have hmeans : List.Forall₂ (Part.Means [("transform", expression)]) StringTable.transformParts
        [Text.ofString "@Transform(", expression.toText, Text.ofString ")"] :=
      .cons (.literal _) (.cons (.value (by decide) rfl) (.cons (.literal _) .nil))
    simp only [StringTable.part_transforms, hexpression, StringTable.partOr_transformLine,
      StringTable.template, mapError_ok, bind, Except.bind, line, Template.format_spelling hmeans]
    simp [hexpression, transformText, pure, Except.pure, Except.toOption]

theorem validatorLine_eq (hlanguage : rule.language = StringTable.language)
    (hcheck : rule.check ≠ .unspecified) :
    rule.validatorLine StringTable.all StringTable.lineLayout =
      .ok (callText rule.check.validator rule.check.arguments
        (rule.check.complaint rule.field)) := by
  have hvalidator : Template.IsName "validator" := by decide
  have harguments : Template.IsName "arguments" := by decide
  have hmessage : Template.IsName "error_message" := by decide
  have hmeans : List.Forall₂
      (Part.Means [("validator", .text rule.check.validator),
        ("arguments", .text rule.check.arguments),
        ("error_message", .text (rule.check.complaint rule.field))]) StringTable.validatorParts
      [Text.ofString "@", Text.ofString rule.check.validator, Text.ofString "(",
        rule.check.arguments, Text.ofString "\x7b message: '", rule.check.complaint rule.field,
        Text.ofString "' \x7d)"] :=
    .cons (.literal _) (.cons (.text hvalidator rfl) (.cons (.literal _)
      (.cons (.text harguments rfl) (.cons (.literal _)
        (.cons (.text hmessage rfl) (.cons (.literal _) .nil))))))
  simp only [validatorLine, StringTable.part_validatorLine, StringTable.template,
    text_validator hlanguage hcheck, text_arguments hlanguage hcheck, message_eq hlanguage hcheck,
    bind, Except.bind, mapError_ok, line, Template.format_spelling hmeans]
  simp [callText]

/-- **The decorators of a rule**: the line of the transform, if the check has one, and the line of
the validator. -/
theorem decorators_eq (hlanguage : rule.language = StringTable.language)
    (hcheck : rule.check ≠ .unspecified) : rule.decorators StringTable.all =
      .ok ((rule.check.expression?.map transformText).toList ++
        [callText rule.check.validator rule.check.arguments (rule.check.complaint rule.field)]) := by
  simp only [decorators, table_eq hlanguage, StringTable.partOr_layout, mapError_ok,
    transformLines_eq, validatorLine_eq hlanguage hcheck, bind, Except.bind]
  rfl

/-! ## Enumerations that lines name -/

/-- How a line begins that calls the validator of enumerations. -/
def memberCall : Text := "@IsEnum("

/-- The line calls the validator of enumerations with the enumeration. -/
def ChecksMember (enumeration : Name) (line : Text) : Prop :=
  ∃ message, line = callText "IsEnum" (enumeration.toText ++ Text.ofString ", ") message

/-- A text that is at least as long tells how any text begins that it begins. -/
theorem not_prefix_append {start known : Text} (hlength : start.length ≤ known.length)
    (h : ¬ start <+: known) (rest : Text) : ¬ start <+: known ++ rest := fun hstart =>
  h (List.prefix_of_prefix_length_le hstart (List.prefix_append _ _) hlength)

theorem callText_eq (validator : String) (arguments message : Text) :
    callText validator arguments message = Text.ofString ("@" ++ validator ++ "(") ++
      (arguments ++ Text.ofString "\x7b message: '" ++ message ++ Text.ofString "' \x7d)") := by
  simp only [callText, Text.ofString_append, List.append_assoc]

/-- A line of a rule that calls the validator of enumerations names the enumeration of the rule. -/
theorem exists_member_of_prefix (hlanguage : rule.language = StringTable.language)
    (hcheck : rule.check ≠ .unspecified) {lines : List Text}
    (h : rule.decorators StringTable.all = .ok lines) {line : Text} (hline : line ∈ lines)
    (hstart : memberCall <+: line) :
    ∃ enumeration, rule.check = .member enumeration ∧ ChecksMember enumeration line := by
  obtain rfl := Except.ok.inj ((decorators_eq hlanguage hcheck).symm.trans h)
  rcases List.mem_append.1 hline with hline | hline
  · obtain ⟨text, -, rfl⟩ := Option.map_eq_some_iff.1 (Option.mem_toList.1 hline)
    rw [transformText, List.append_assoc] at hstart
    exact absurd hstart (not_prefix_append (by decide) (by decide) _)
  · obtain rfl := List.mem_singleton.1 hline
    cases hmember : rule.check with
    | member enumeration => exact ⟨enumeration, rfl, _, rfl⟩
    | unspecified => exact absurd hmember hcheck
    | _ =>
      rw [hmember, callText_eq] at hstart
      exact absurd hstart (not_prefix_append (by decide) (by decide) _)

/-! ## Names as they are -/

/-- The lines for the transform of a check: none if it has no transform, and else the one with the
expression that the table has for it. -/
def AreTransformLines (check : Check) (lines : List Text) : Prop :=
  match check.transform? with
  | none => lines = []
  | some kind => ∃ expression,
      StringTable.part StringTable.transformTable (.text kind) = .ok (.text expression) ∧
        lines = [transformText expression]

theorem areTransformLines (check : Check) :
    AreTransformLines check (check.expression?.map transformText).toList := by
  cases check with
  | text | member | unspecified => exact rfl
  | _ => exact ⟨_, rfl, rfl⟩

/-- A rule has the validator that is called, what it is given, and what it reports. -/
structure IsWorded (rule : Rule) (called : String) (given report : Text) : Prop where
  validator : rule.text StringTable.all "validator" = .ok (.ofString called)
  arguments : rule.text StringTable.all "arguments" = .ok given
  message : rule.message StringTable.all = .ok report
  /-- As data, a rule has its message and the kind of its transform. -/
  descriptor : rule.descriptor StringTable.all =
    .ok ⟨rule.check.category, report, rule.check.transform?⟩
  /-- As lines, it has the transform and the validator, which reports the same message. -/
  decorators : ∃ transform, AreTransformLines rule.check transform ∧
    rule.decorators StringTable.all = .ok (transform ++ [callText called given report])

theorem isWorded (hlanguage : rule.language = StringTable.language)
    (hcheck : rule.check ≠ .unspecified) :
    IsWorded rule rule.check.validator rule.check.arguments (rule.check.complaint rule.field) where
  validator := text_validator hlanguage hcheck
  arguments := text_arguments hlanguage hcheck
  message := message_eq hlanguage hcheck
  descriptor := by
    rw [descriptor, message_eq hlanguage hcheck]
    rfl
  decorators := ⟨_, areTransformLines rule.check, decorators_eq hlanguage hcheck⟩

/-- A message begins with the name of the field, and goes on as it does for any other. -/
theorem complaint_text {check : Check} (hcheck : check ≠ .unspecified) (field : Text) :
    check.complaint (.text field) = field ++ check.complaint (.text []) := by
  cases check with
  | unspecified => exact absurd rfl hcheck
  | member enumeration => exact List.append_assoc _ _ _
  | _ => rfl

/-- **Names are put into the wording as they are**, and are not looked at again. A rule that checks
for something has a validator, arguments and an end of its message that are the same for all fields;
the name of the field stands in front of this end. The name of an enumeration stands in the
arguments and in the message in the same way. -/
theorem exists_isWorded {check : Check} (hcheck : check ≠ .unspecified) :
    ∃ (called : String) (given ending : Text),
      (∀ enumeration : Text, check = .member (.text enumeration) →
        given = enumeration ++ Text.ofString ", " ∧
          ending = Text.ofString " must be enum " ++ enumeration) ∧
      ∀ field : Text, IsWorded ⟨check, .text field, StringTable.language⟩ called given
        (field ++ ending) := by
  refine ⟨check.validator, check.arguments, check.complaint (.text []), ?_, fun field => ?_⟩
  · rintro enumeration rfl
    exact ⟨rfl, rfl⟩
  · rw [← complaint_text hcheck]
    exact isWorded rfl hcheck

/-- A rule whose names have braces and a quote, and look like placeholders. -/
def braced : Rule :=
  ⟨.member (.text "\x7benum_name\x7d\x7d"), .text "\x7bfield_name\x7d'", StringTable.language⟩

theorem exists_isWorded_braced :
    braced.check ≠ .unspecified ∧
      braced.message StringTable.all =
        .ok "\x7bfield_name\x7d' must be enum \x7benum_name\x7d\x7d" ∧
      braced.decorators StringTable.all =
        .ok [Text.ofString ("@IsEnum(\x7benum_name\x7d\x7d, \x7b message: " ++
          "'\x7bfield_name\x7d' must be enum \x7benum_name\x7d\x7d' \x7d)")] := by
  have hcheck : braced.check ≠ .unspecified := by decide
  obtain ⟨called, given, ending, hnames, hworded⟩ := exists_isWorded hcheck
  obtain ⟨rfl, rfl⟩ := hnames _ rfl
  obtain ⟨hvalidator, -, hmessage, -, transform, htransform, hdecorators⟩ :=
    hworded "\x7bfield_name\x7d'"
  have hcalled : Text.ofString called = Text.ofString "IsEnum" :=
    Except.ok.inj (hvalidator.symm.trans (by decide +kernel))
  obtain rfl : transform = [] := htransform
  refine ⟨hcheck, hmessage, hdecorators.trans ?_⟩
  rw [callText, hcalled]
  decide +kernel

end Rule

end SchemaScribe
