import Mathlib.Data.List.Basic
import SchemaScribe.Model.TypeScript
import SchemaScribe.Proofs.Text.Split

/-!
# Reading the model of a table

`decode` reads the text of the model of a table, line by line: the imports up to the first empty
line, the name of the model, and its fields, each with the decorators in front of it. Of both styles
it gives back what the text was made of (`decode_tableText`), if names are words and nothing holds a
line feed. Words end at the first blank or mark, and only a decorator starts with an `@`, so that
names cannot be taken for anything else.
-/

namespace SchemaScribe.TypeScript

open Text (lineFeed split withLineEnds)

/-! ## Words -/

/-- Whether a code point can be part of a word: an ASCII letter or digit, `_`, `$`, or any code
point beyond ASCII. -/
def isWordCharacter (x : CodePoint) : Bool :=
  127 < x.code || x.satisfies fun c => c.isAlphanum || c = '_' || c = '$'

/-- Not empty, and made of letters, digits, `_` and `$`. -/
structure IsWord (t : Text) : Prop where
  ne_nil : t ≠ []
  all : ∀ x ∈ t, isWordCharacter x = true

instance (t : Text) : Decidable (IsWord t) :=
  decidable_of_iff (t ≠ [] ∧ ∀ x ∈ t, isWordCharacter x = true)
    ⟨fun h => ⟨h.1, h.2⟩, fun h => ⟨h.ne_nil, h.all⟩⟩

variable {t rest : Text} {x : CodePoint}

theorem IsWord.not_mem (h : IsWord t) (hx : isWordCharacter x = false) : x ∉ t := fun hmem =>
  Bool.false_ne_true (hx.symm.trans (h.all x hmem))

theorem IsWord.takeWhile_append (h : IsWord t) (hx : isWordCharacter x = false) (rest : Text) :
    (t ++ x :: rest).takeWhile isWordCharacter = t := by
  rw [List.takeWhile_append_of_pos h.all, List.takeWhile_cons_of_neg (by simp [hx]),
    List.append_nil]

theorem IsWord.dropWhile_append (h : IsWord t) (hx : isWordCharacter x = false) (rest : Text) :
    (t ++ x :: rest).dropWhile isWordCharacter = x :: rest := by
  rw [List.dropWhile_append_of_pos h.all, List.dropWhile_cons_of_neg (by simp [hx])]

theorem dropPrefix?_append (start rest : Text) :
    (start ++ rest).dropPrefix? start = some rest :=
  List.dropPrefix?_eq_some_iff.2 ⟨start, rfl, beq_self_eq_true start⟩

/-! ## Readers -/

/-- What the lines of a field say. -/
structure FieldReading where
  name : Text
  isRequired : Bool
  type : Text
  decorators : List Text
  deriving DecidableEq, Repr

/-- What the text of a model says: the names that it imports with their specifiers, its name, and
its fields. -/
structure Reading where
  imports : List (Text × Text)
  name : Text
  fields : List FieldReading
  deriving DecidableEq, Repr

/-- Reads an import: the name and the specifier. -/
def readImport (line : Text) : Option (Text × Text) := do
  let rest ← line.dropPrefix? "import \x7b "
  let path ← (rest.dropWhile isWordCharacter).dropPrefix? " \x7d from '"
  return (rest.takeWhile isWordCharacter, path.dropLast)

/-- Reads the name of the model. -/
def readOpening (line : Text) : Option Text := do
  let rest ← (line.dropPrefix? "export class ").or (line.dropPrefix? "export interface ")
  return rest.takeWhile isWordCharacter

/-- Reads what stands behind the name of a field: whether it is required, and its type. -/
def readType (rest : Text) : Option (Bool × Text) :=
  match rest.dropPrefix? "?: " with
  | some type => some (false, type)
  | none => ((rest.dropPrefix? "!: ").or (rest.dropPrefix? ": ")).map (true, ·)

/-- Reads the declaration of a field behind its decorators. -/
def readDeclaration (decorators : List Text) (line : Text) : Option FieldReading := do
  let (isRequired, type) ← readType (line.dropWhile isWordCharacter)
  return ⟨line.takeWhile isWordCharacter, isRequired, type, decorators⟩

/-- Reads fields; the given decorators belong to the first one. -/
def readFields (decorators : List Text) : List Text → Option (List FieldReading)
  | [] => some []
  | line :: rest =>
    if line.head? = some (.scalar '@') then readFields (decorators ++ [line]) rest
    else do
      let field ← readDeclaration decorators line
      let more ← readFields [] rest
      return field :: more

/-- Passes over the imports of a class that do not depend on the table, and the line behind them. -/
def skipLibraries (lines : List Text) : List Text :=
  if libraryImports.isPrefixOf lines then lines.drop (libraryImports.length + 1) else lines

/-- Reads the lines of the model of a table with the given indent. -/
def decodeLines (indent : Text) (lines : List Text) : Option Reading := do
  let imports ← (lines.takeWhile (· ≠ [])).mapM readImport
  match skipLibraries ((lines.dropWhile (· ≠ [])).drop 1) with
  | [] => none
  | opening :: body =>
    let name ← readOpening opening
    let fields ← readFields [] (body.dropLast.map (·.drop indent.length))
    return ⟨imports, name, fields⟩

/-- Reads the model of a table with the given indent. -/
def decode (indent content : Text) : Option Reading := decodeLines indent (split lineFeed content)

/-! ## What is read -/

variable {annotated : Bool} {name : Name} {path indent : Text} {field : Field}
  {fields : List Field} {decoratorsOf : Field → List Text}

theorem readImport_importLine (hname : IsWord name.toText) (path : Text) :
    readImport (importLine name path) = some (name.toText, path) := by
  have hline : importLine name path = Text.ofString "import \x7b " ++ (name.toText ++
      .scalar ' ' :: (Text.ofString "\x7d from '" ++ (path ++ [.scalar '\'']))) := by
    simp only [importLine, List.append_assoc]
    rfl
  have hblank : isWordCharacter (.scalar ' ') = false := by decide
  have hfrom : .scalar ' ' :: (Text.ofString "\x7d from '" ++ (path ++ [.scalar '\''])) =
      Text.ofString " \x7d from '" ++ (path ++ [.scalar '\'']) := rfl
  rw [readImport, hline, dropPrefix?_append]
  simp only [Option.bind_eq_bind, Option.bind_some]
  rw [hname.takeWhile_append hblank, hname.dropWhile_append hblank, hfrom, dropPrefix?_append,
    Option.bind_some, List.dropLast_concat]
  rfl

/-- The line that opens a model. -/
def openingLine (annotated : Bool) (name : Name) : Text :=
  (if annotated then "export class " else "export interface ") ++ name.toText ++ " \x7b"

theorem readOpening_openingLine (hname : IsWord name.toText) :
    readOpening (openingLine annotated name) = some name.toText := by
  have hblank : isWordCharacter (.scalar ' ') = false := by decide
  have hend : Text.ofString " \x7b" = .scalar ' ' :: Text.ofString "\x7b" := rfl
  cases annotated with
  | true =>
    rw [readOpening, openingLine, if_pos rfl, List.append_assoc, dropPrefix?_append, hend]
    simp only [Option.some_or, Option.bind_eq_bind, Option.bind_some,
      hname.takeWhile_append hblank]
    rfl
  | false =>
    have hother : (Text.ofString "export interface " ++
        (name.toText ++ Text.ofString " \x7b")).dropPrefix? "export class " = none := rfl
    rw [readOpening, openingLine, if_neg Bool.false_ne_true, List.append_assoc, hother,
      dropPrefix?_append, hend]
    simp only [Option.none_or, Option.bind_eq_bind, Option.bind_some,
      hname.takeWhile_append hblank]
    rfl

/-- What a field says in a model, with the given decorators. -/
def readingOf (decorators : List Text) (field : Field) : FieldReading :=
  ⟨field.name.toText, field.isRequired, (typeName field.type).toText, decorators⟩

/-- The name of a field is a word, and its lines can be told apart. -/
structure IsReadable (decorators : List Text) (field : Field) : Prop where
  name : IsWord field.name.toText
  type : lineFeed ∉ (typeName field.type).toText
  decorators : ∀ line ∈ decorators, line.head? = some (.scalar '@') ∧ lineFeed ∉ line

theorem readType_question (type : Text) :
    readType (Text.ofString "?: " ++ type) = some (false, type) := by
  rw [readType, dropPrefix?_append]

theorem readType_exclamation (type : Text) :
    readType (Text.ofString "!: " ++ type) = some (true, type) := by
  have hother : (Text.ofString "!: " ++ type).dropPrefix? "?: " = none := rfl
  rw [readType, hother, dropPrefix?_append]
  rfl

theorem readType_colon (type : Text) :
    readType (Text.ofString ": " ++ type) = some (true, type) := by
  have hother : (Text.ofString ": " ++ type).dropPrefix? "?: " = none := rfl
  have hother' : (Text.ofString ": " ++ type).dropPrefix? "!: " = none := rfl
  rw [readType, hother, hother', dropPrefix?_append]
  rfl

/-- What stands behind the name in a declaration does not go on with the name, and is read. -/
theorem exists_mark (annotated : Bool) (field : Field) : ∃ x rest,
    declaration annotated field = field.name.toText ++ x :: rest ∧ isWordCharacter x = false ∧
      readType (x :: rest) = some (field.isRequired, (typeName field.type).toText) := by
  rw [declaration, List.append_assoc, List.append_assoc]
  unfold marker
  cases field.isRequired with
  | false =>
    rw [if_pos (by decide)]
    exact ⟨.scalar '?', Text.ofString ": " ++ (typeName field.type).toText, rfl, by decide,
      readType_question _⟩
  | true =>
    rw [if_neg (by decide)]
    cases annotated with
    | true =>
      exact ⟨.scalar '!', Text.ofString ": " ++ (typeName field.type).toText, rfl, by decide,
        readType_exclamation _⟩
    | false =>
      exact ⟨.scalar ':', Text.ofString " " ++ (typeName field.type).toText, rfl, by decide,
        readType_colon _⟩

theorem readDeclaration_declaration (hname : IsWord field.name.toText) (decorators : List Text) :
    readDeclaration decorators (declaration annotated field) =
      some (readingOf decorators field) := by
  obtain ⟨x, rest, hline, hx, htype⟩ := exists_mark annotated field
  rw [readDeclaration, hline, hname.dropWhile_append hx, htype, hname.takeWhile_append hx]
  rfl

/-- A declaration is not taken for a decorator. -/
theorem head?_declaration_ne (hname : IsWord field.name.toText) :
    (declaration annotated field).head? ≠ some (.scalar '@') := by
  obtain ⟨x, rest, hline, -, -⟩ := exists_mark annotated field
  obtain ⟨y, more, hy⟩ := List.exists_cons_of_ne_nil hname.ne_nil
  rw [hline, hy, List.cons_append, List.head?_cons]
  intro heq
  have hword := hname.all y (hy ▸ List.mem_cons_self)
  rw [Option.some.inj heq] at hword
  exact absurd hword (by decide)

/-- **One field**: decorators are kept up to the declaration behind them. -/
theorem readFields_append_cons {decorators : List Text}
    (hdecorators : ∀ line ∈ decorators, line.head? = some (.scalar '@'))
    (hname : IsWord field.name.toText) (before rest : List Text) :
    readFields before (decorators ++ declaration annotated field :: rest) =
      (readFields [] rest).map (readingOf (before ++ decorators) field :: ·) := by
  induction decorators generalizing before with
  | nil =>
    rw [List.nil_append, List.append_nil, readFields, if_neg (head?_declaration_ne hname),
      readDeclaration_declaration hname]
    cases readFields [] rest <;> rfl
  | cons line more ih =>
    obtain ⟨hline, hmore⟩ := List.forall_mem_cons.1 hdecorators
    rw [List.cons_append, readFields, if_pos hline, ih hmore, List.append_assoc,
      List.singleton_append]

/-- **All fields**, by induction from the first. -/
theorem readFields_flatMap (h : ∀ field ∈ fields, IsReadable (decoratorsOf field) field) :
    readFields [] (fields.flatMap fun field =>
        decoratorsOf field ++ [declaration annotated field]) =
      some (fields.map fun field => readingOf (decoratorsOf field) field) := by
  induction fields with
  | nil => rfl
  | cons field rest ih =>
    obtain ⟨hfield, hrest⟩ := List.forall_mem_cons.1 h
    rw [List.flatMap_cons, List.append_assoc, List.singleton_append,
      readFields_append_cons (fun line hline => (hfield.decorators line hline).1) hfield.name,
      ih hrest]
    rfl

/-! ## Lines -/

/-- The lines of a model between the imports of items and its fields. -/
def headLines (annotated : Bool) (name : Name) : List Text :=
  (if annotated then libraryImports ++ [[]] else []) ++ [openingLine annotated name]

theorem tableText_eq (annotated : Bool) (indent : Text) (imports : List Text) (name : Name)
    (body : List Text) : tableText annotated indent imports name body =
      withLineEnds (imports ++ [] :: (headLines annotated name ++ body.map (indent ++ ·))) ++
        "\x7d" := by
  have hopening : opening annotated name = withLineEnds (headLines annotated name) := by
    cases annotated with
    | true => simp [opening, headLines, openingLine, Text.withLineEnds]; rfl
    | false => simp [opening, headLines, openingLine, Text.withLineEnds]; rfl
  have hempty : ∀ lines, withLineEnds ([] :: lines) = "\n" ++ withLineEnds lines := fun _ => rfl
  rw [tableText, hopening, Text.withLineEnds_append, hempty, Text.withLineEnds_append]
  simp only [List.append_assoc]

theorem skipLibraries_headLines (annotated : Bool) (name : Name) (rest : List Text) :
    skipLibraries (headLines annotated name ++ rest) = openingLine annotated name :: rest := by
  cases annotated with
  | true =>
    have hstarts : libraryImports.isPrefixOf (headLines true name ++ rest) = true := by
      rw [List.isPrefixOf_iff_prefix, headLines, if_pos rfl, List.append_assoc, List.append_assoc]
      exact List.prefix_append _ _
    rw [skipLibraries, if_pos hstarts]
    rfl
  | false =>
    have hstarts : libraryImports.isPrefixOf (headLines false name ++ rest) = false := rfl
    rw [skipLibraries, hstarts, if_neg Bool.false_ne_true]
    rfl

theorem lineFeed_not_mem_importLine (hname : IsWord name.toText) (hpath : lineFeed ∉ path) :
    lineFeed ∉ importLine name path := by
  simp only [importLine, List.mem_append, not_or]
  exact ⟨⟨⟨⟨by decide, hname.not_mem (by decide)⟩, by decide⟩, hpath⟩, by decide⟩

theorem lineFeed_not_mem_headLines (hname : IsWord name.toText) :
    ∀ line ∈ headLines annotated name, lineFeed ∉ line := by
  have hlibraries : ∀ line ∈ libraryImports ++ [[]], lineFeed ∉ line := by decide
  have hopening : lineFeed ∉ openingLine annotated name := by
    simp only [openingLine, List.mem_append, not_or]
    exact ⟨⟨by cases annotated <;> decide, hname.not_mem (by decide)⟩, by decide⟩
  rw [headLines, List.forall_mem_append]
  refine ⟨fun line hline => ?_, by simpa using hopening⟩
  split at hline
  · exact hlibraries line hline
  · cases hline

theorem IsReadable.lineFeed_not_mem {decorators : List Text} (h : IsReadable decorators field) :
    ∀ line ∈ decorators ++ [declaration annotated field], lineFeed ∉ line := by
  rw [List.forall_mem_append]
  refine ⟨fun line hline => (h.decorators line hline).2, ?_⟩
  have hmark : lineFeed ∉ Text.ofString (marker annotated field.isRequired) := by
    cases annotated <;> cases field.isRequired <;> decide
  simp only [List.mem_singleton, forall_eq, declaration, List.mem_append, not_or]
  exact ⟨⟨⟨h.name.not_mem (by decide), hmark⟩, by decide⟩, h.type⟩

theorem mapM_readImport {imports : List (Name × Text)} (h : ∀ i ∈ imports, IsWord i.1.toText) :
    (imports.map fun i => importLine i.1 i.2).mapM readImport =
      some (imports.map fun i => (i.1.toText, i.2)) := by
  induction imports with
  | nil => rfl
  | cons i rest ih =>
    obtain ⟨hi, hrest⟩ := List.forall_mem_cons.1 h
    rw [List.map_cons, List.mapM_cons, readImport_importLine hi, ih hrest]
    rfl

theorem unindent_body (indent : Text) (body : List Text) (last : Text) :
    (body.map (indent ++ ·) ++ [last]).dropLast.map (·.drop indent.length) = body := by
  rw [List.dropLast_concat, List.map_map]
  simp only [Function.comp_def, List.drop_left, List.map_id']

/-- **The lines of a model are read back**, the last of which is its end. -/
theorem decodeLines_eq (annotated : Bool) (indent last : Text) {imports : List (Name × Text)}
    (himports : ∀ i ∈ imports, IsWord i.1.toText) (hname : IsWord name.toText)
    (hfields : ∀ field ∈ fields, IsReadable (decoratorsOf field) field) :
    decodeLines indent ((imports.map fun i => importLine i.1 i.2) ++
        [] :: (headLines annotated name ++ ((fields.flatMap fun field =>
          decoratorsOf field ++ [declaration annotated field]).map (indent ++ ·) ++ [last]))) =
      some ⟨imports.map fun i => (i.1.toText, i.2), name.toText,
        fields.map fun field => readingOf (decoratorsOf field) field⟩ := by
  have hfilled : ∀ line ∈ imports.map fun i => importLine i.1 i.2, decide (line ≠ []) = true := by
    intro line hline
    obtain ⟨i, -, rfl⟩ := List.mem_map.1 hline
    exact decide_eq_true (List.cons_ne_nil _ _)
  rw [decodeLines, List.takeWhile_append_of_pos hfilled, List.dropWhile_append_of_pos hfilled,
    List.takeWhile_cons_of_neg (by decide), List.dropWhile_cons_of_neg (by decide),
    List.append_nil, mapM_readImport himports, List.drop_succ_cons, List.drop_zero,
    skipLibraries_headLines]
  simp only [Option.bind_eq_bind, Option.bind_some]
  rw [readOpening_openingLine hname, unindent_body, readFields_flatMap hfields]
  rfl

/-- **A model is read back.** From the text of a model in either style, `decode` gives the names and
specifiers of the imports, the name of the model, and the fields with what they say, all in
order. -/
theorem decode_tableText (annotated : Bool) (hindent : lineFeed ∉ indent)
    {imports : List (Name × Text)}
    (himports : ∀ i ∈ imports, IsWord i.1.toText ∧ lineFeed ∉ i.2) (hname : IsWord name.toText)
    (hfields : ∀ field ∈ fields, IsReadable (decoratorsOf field) field) :
    decode indent (tableText annotated indent (imports.map fun i => importLine i.1 i.2) name
        (fields.flatMap fun field => decoratorsOf field ++ [declaration annotated field])) =
      some ⟨imports.map fun i => (i.1.toText, i.2), name.toText,
        fields.map fun field => readingOf (decoratorsOf field) field⟩ := by
  have hlines : ∀ line ∈ (imports.map fun i => importLine i.1 i.2) ++
      [] :: (headLines annotated name ++ (fields.flatMap fun field =>
        decoratorsOf field ++ [declaration annotated field]).map (indent ++ ·)),
      lineFeed ∉ line := by
    rw [List.forall_mem_append, List.forall_mem_cons, List.forall_mem_append]
    refine ⟨?imports, List.not_mem_nil, lineFeed_not_mem_headLines hname, ?body⟩
    case imports =>
      intro line hline
      obtain ⟨i, hi, rfl⟩ := List.mem_map.1 hline
      exact lineFeed_not_mem_importLine (himports i hi).1 (himports i hi).2
    case body =>
      intro line hline
      obtain ⟨inner, hinner, rfl⟩ := List.mem_map.1 hline
      obtain ⟨field, hfield, hmem⟩ := List.mem_flatMap.1 hinner
      rw [List.mem_append, not_or]
      exact ⟨hindent, (hfields field hfield).lineFeed_not_mem inner hmem⟩
  have hend : split lineFeed "\x7d" = [Text.ofString "\x7d"] := by decide
  rw [decode, tableText_eq, Text.split_withLineEnds_append hlines, hend, List.append_assoc,
    List.cons_append, List.append_assoc]
  exact decodeLines_eq annotated indent _ (fun i hi => (himports i hi).1) hname hfields

example : decode "  " ("import \x7b Role \x7d from '../enum/Role'\n\n" ++
    "export interface User \x7b\n  id: number\n  role?: Role\n\x7d") =
      some ⟨[("Role", "../enum/Role")], "User",
        [⟨"id", true, "number", []⟩, ⟨"role", false, "Role", []⟩]⟩ := by
  decide +kernel

end SchemaScribe.TypeScript
