import SchemaScribe.Model.TypeScript
import SchemaScribe.Proofs.Model.Field
import SchemaScribe.Proofs.Schema.Grammar

/-!
# Which fields are required

The document of a column spells its flags in one of two ways, and in both they are read in order,
each with its type and its value (`flags_of_spellsColumn`). The fields of a column are required
exactly when the first flag `null` has a value that does not count as true
(`isRequired_iff_nullsOf`).

Where the flags `null` of a document are Booleans and agree, this is to say that one of them is
`false`. Elsewhere it is not: a flag without a value makes a column required as well, and a `false`
behind another flag `null` does not (`unclear_nulls`).
-/

namespace SchemaScribe

open Json (member member?)

/-! ## The flags of a column -/

/-- The flag that an element of a list of attributes spells. -/
def Schema.flag? : Json → Option (Json × Json)
  | .object members => (member? members "type").map fun type => (type, member members "value")
  | _ => none

/-- The flags that the attributes of a column spell, each with its type and its value. -/
def Schema.flagsOf : Json → List (Json × Json)
  | .object members => members.map fun (key, value) => (.text key, value)
  | .list elements => elements.filterMap flag?
  | _ => []

/-- The values of the flags `null` in the document of a column, in order. -/
def Schema.nullsOf : Json → List Json
  | .object members =>
    ((flagsOf (member members "attributes")).filter (·.1 = .text "null")).map Prod.snd
  | _ => []

/-- The values of the flags `null` of a column, in order. -/
def Column.nulls (column : Column) : List Json :=
  (column.attributes.filter (·.type = .text "null")).map Attribute.value

/-- A column is required by its first flag `null`. -/
theorem Column.isRequired_iff (column : Column) :
    column.isRequired = true ↔ ∃ value, column.nulls.head? = some value ∧
      value.isTruthy = false := by
  have hpred : (fun flag : Attribute => flag.type.equals (.text "null")) =
      fun flag => decide (flag.type = .text "null") := by
    funext flag
    rw [Bool.eq_iff_iff, Json.equals_text_iff, decide_eq_true_iff]
  have hfind : column.attribute? (.text "null") =
      (column.attributes.filter (·.type = .text "null")).head? := by
    rw [List.head?_filter, attribute?, hpred]
  rw [isRequired, hfind, nulls, List.head?_map]
  cases (column.attributes.filter (·.type = .text "null")).head? with
  | none => simp
  | some flag => simp

namespace Schema

variable {place : SchemaScribe.Place} {x : Json} {column : Column} {options : Options} {schema : Schema}
  {table : Table} {fields : List Field} {field : Field}

theorem flags_of_spellsAttributes {attributes : List Attribute}
    (h : SpellsAttributes x attributes) :
    attributes.map (fun flag => (flag.type, flag.value)) = flagsOf x := by
  cases h with
  | none hfalse =>
    cases x with
    | list elements =>
      obtain rfl : elements = [] := by simpa [Json.isTruthy] using hfalse
      rfl
    | object members =>
      obtain rfl : members = [] := by simpa [Json.isTruthy] using hfalse
      rfl
    | _ => rfl
  | object members =>
    rw [flagsOf, List.map_map]
    rfl
  | list hall =>
    rw [flagsOf]
    induction hall with
    | nil => rfl
    | cons hflag _ ih =>
      obtain ⟨htype⟩ := hflag
      rw [List.map_cons, ih, List.filterMap_cons_some]
      rw [flag?, htype]
      rfl

/-- **Flags are read in order**, from both spellings. -/
theorem nulls_of_spellsColumn (h : SpellsColumn x column) : column.nulls = nullsOf x := by
  obtain ⟨-, -, -, hattributes⟩ := h
  rw [nullsOf, ← flags_of_spellsAttributes hattributes, List.filter_map, List.map_map]
  rfl

/-! ## The fields of a column -/

/-- All fields of a column are as required as the column. -/
theorem isRequired_of_mem_fieldsOf (h : schema.fieldsOf options table column = .ok fields)
    (hfield : field ∈ fields) : field.isRequired = column.isRequired := by
  by_cases hrelation : column.type.IsRelation
  · obtain ⟨name, target, key, htype⟩ := hrelation
    obtain ⟨resolved, found, -, -, rfl⟩ := (fieldsOf_relation_eq_ok_iff htype).1 h
    rcases List.mem_cons.1 hfield with rfl | hfield
    · rfl
    · obtain rfl := List.mem_singleton.1 hfield
      rfl
  · obtain ⟨found, -, rfl⟩ := (fieldsOf_eq_ok_iff hrelation).1 h
    obtain rfl := List.mem_singleton.1 hfield
    rfl

/-- The declaration of a field has the mark of one that may be absent behind its name exactly when
the field is not required. -/
theorem question_prefix_declaration_iff (annotated : Bool) (field : Field) :
    field.name.toText ++ Text.ofString "?" <+: TypeScript.declaration annotated field ↔
      field.isRequired = false := by
  have hquestion : Text.ofString "?" = [.scalar '?'] := rfl
  have hmark : Text.ofString "!" = [.scalar '!'] := rfl
  have hnone : Text.ofString "" = [] := rfl
  have hcolon : Text.ofString ": " = [.scalar ':', .scalar ' '] := rfl
  rw [TypeScript.declaration, List.append_assoc, List.append_assoc, List.prefix_append_right_inj]
  unfold TypeScript.marker
  cases field.isRequired with
  | false => exact iff_of_true (List.prefix_append _ _) rfl
  | true => cases annotated <;> simp [hquestion, hmark, hnone, hcolon]

/-- **When a field is required.** Whatever a document gives for the attributes of a column, each
field of the column is required, and lacks the mark of one that may be absent, exactly when the
first flag `null` has a value that does not count as true. Where all flags `null` are one Boolean,
this is so exactly when one of them is `false`. -/
theorem isRequired_iff_nullsOf (h : readColumn place x = .ok column)
    (hfields : schema.fieldsOf options table column = .ok fields) (hfield : field ∈ fields) :
    (field.isRequired = true ↔
        ∃ value, (nullsOf x).head? = some value ∧ value.isTruthy = false) ∧
      (∀ annotated, ¬ field.name.toText ++ Text.ofString "?" <+:
          TypeScript.declaration annotated field ↔ field.isRequired = true) ∧
      (∀ b, (∀ value ∈ nullsOf x, value = .bool b) →
        (field.isRequired = true ↔ .bool false ∈ nullsOf x)) := by
  have hrequired : field.isRequired = true ↔
      ∃ value, (nullsOf x).head? = some value ∧ value.isTruthy = false := by
    rw [isRequired_of_mem_fieldsOf hfields hfield, column.isRequired_iff,
      nulls_of_spellsColumn ((gives_readColumn place x column).1 h)]
  refine ⟨hrequired, fun annotated => ?_, fun b hall => ?_⟩
  · rw [question_prefix_declaration_iff, Bool.not_eq_false]
  rw [hrequired]
  constructor
  · rintro ⟨value, hhead, hfalse⟩
    have hmem := List.mem_of_head? hhead
    obtain rfl := hall value hmem
    obtain rfl : b = false := hfalse
    exact hmem
  · intro hmem
    obtain ⟨first, rest, hnulls⟩ := List.exists_cons_of_ne_nil (List.ne_nil_of_mem hmem)
    have hb := hall _ hmem
    refine ⟨first, by rw [hnulls, List.head?_cons], ?_⟩
    rw [hall first (hnulls ▸ List.mem_cons_self), ← hb]
    rfl

/-- The document of the column `id` with the given attributes. -/
def keyWith (attributes : List Json) : Json :=
  .object [("name", .text "id"),
    ("type", .object [("kind", .text "common"), ("type", .text "int")]),
    ("attributes", .list attributes)]

/-- Flags as a document spells them in a list. -/
def spelled (flags : List (String × Json)) : List Json :=
  flags.map fun (type, value) => .object [("type", .text type), ("value", value)]

/-- The column `id` with the given flags. -/
def keyColumn (flags : List (String × Json)) : Column :=
  ⟨.text "id", .common (.text "int"), flags.map fun (type, value) => ⟨.text type, value⟩⟩

/-- The field of this column in an interface. -/
def keyField (isRequired : Bool) : Field := ⟨.text "id", .scalar .number, isRequired, []⟩

/-- Options for interfaces. -/
def plainStyle : Options := { style := .plain }

/-- Flags of which two are called `null` and agree. -/
def agreedFlags : List (String × Json) :=
  [("unique", .int 0), ("null", .bool false), ("null", .bool false)]

theorem isRequired_iff_nullsOf_agreed :
    readColumn [] (keyWith (spelled agreedFlags)) = .ok (keyColumn agreedFlags) ∧
      fieldsOf plainStyle [] ⟨.text "User", [keyColumn agreedFlags]⟩ (keyColumn agreedFlags) =
        .ok [keyField true] ∧
      (∀ value ∈ nullsOf (keyWith (spelled agreedFlags)), value = .bool false) ∧
      .bool false ∈ nullsOf (keyWith (spelled agreedFlags)) := by
  have hread : readColumn [] (keyWith (spelled agreedFlags)) = .ok (keyColumn agreedFlags) := by
    decide +kernel
  have hfields : fieldsOf plainStyle [] ⟨.text "User", [keyColumn agreedFlags]⟩
      (keyColumn agreedFlags) = .ok [keyField true] := by decide +kernel
  have hall : ∀ value ∈ nullsOf (keyWith (spelled agreedFlags)), value = .bool false := by
    decide +kernel
  obtain ⟨-, -, hboolean⟩ := isRequired_iff_nullsOf hread hfields List.mem_cons_self
  exact ⟨hread, hfields, hall, (hboolean false hall).1 rfl⟩

/-- Flags `null` that do not agree. -/
def disputedFlags : List (String × Json) := [("null", .bool true), ("null", .bool false)]

/-- A flag `null` without a value makes a field required, although nothing is `false`; and one that
is `true` keeps a field from being required, although there is a `false` behind it. -/
theorem unclear_nulls :
    (∃ x, x = keyWith [.object [("type", .text "null")]] ∧
      readColumn [] x = .ok (keyColumn [("null", .null)]) ∧
      fieldsOf plainStyle [] ⟨.text "User", [keyColumn [("null", .null)]]⟩
        (keyColumn [("null", .null)]) = .ok [keyField true] ∧
      .bool false ∉ nullsOf x) ∧
    readColumn [] (keyWith (spelled disputedFlags)) = .ok (keyColumn disputedFlags) ∧
      fieldsOf plainStyle [] ⟨.text "User", [keyColumn disputedFlags]⟩ (keyColumn disputedFlags) =
        .ok [keyField false] ∧
      .bool false ∈ nullsOf (keyWith (spelled disputedFlags)) := by
  refine ⟨⟨_, rfl, ?_, ?_, ?_⟩, ?_, ?_, ?_⟩ <;> decide +kernel

end Schema

end SchemaScribe
