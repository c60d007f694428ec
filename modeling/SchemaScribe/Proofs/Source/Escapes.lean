import SchemaScribe.CommandLine.Run
import SchemaScribe.Proofs.Json.Limits
import SchemaScribe.Proofs.Schema.Spellings

/-!
# Failures to load that escape

A failure to load a schema is reported, but for those of six sorts (`Escapes`, `load_escapes`): the
source can be no address, the system cannot be asked for the file, the file is not UTF-8, its
document is nested too deeply or has a number that is too long, or has a list that is a value
without elements. All other faults of a source or of a document are reported, wherever they are.
Nothing escapes for its size from a source whose text keeps to the limits.
-/

namespace SchemaScribe.Schema

open CommandLine (Failure)
open Json (member?)

variable {levels : Nat} {fs : FileSystem} {fetch : Text → Fetched} {source : Text}

/-! ## Documents -/

/-- A value that is no list, no text and no object. -/
inductive HasNoElements : Json → Prop
  | null : HasNoElements .null
  | bool (b : Bool) : HasNoElements (.bool b)
  | int (n : Int) : HasNoElements (.int n)
  | float (x : Binary64) : HasNoElements (.float x)

/-- An object has its tables and its enumerations apart, and the first value without elements among
the two is this one. -/
inductive LacksElements : Json → Json → Prop
  | tables {members : List (Text × Json)} {x : Json} (hitems : member? members "items" = none)
      (htables : member? members "list_table" = some x) (hx : HasNoElements x) :
      LacksElements (.object members) x
  | enumerations {members : List (Text × Json)} {x : Json} (hitems : member? members "items" = none)
      (htables : ∀ y, member? members "list_table" = some y → ¬ HasNoElements y)
      (henumerations : member? members "list_enum" = some x) (hx : HasNoElements x) :
      LacksElements (.object members) x

theorem hasNoElements_iff {x : Json} : HasNoElements x ↔ x.elements? = none := by
  constructor
  · rintro (_ | _ | _ | _) <;> rfl
  · intro h
    cases x with
    | null => exact .null
    | bool b => exact .bool b
    | int n => exact .int n
    | float y => exact .float y
    | text t => cases h
    | list xs => cases h
    | object ms => cases h

theorem elementsOf_eq_error_iff {x : Json} {e : SchemaError} :
    elementsOf x = .error e ↔ HasNoElements x ∧ e = .noElements x.typeName := by
  rw [hasNoElements_iff, elementsOf]
  cases x.elements? with
  | none => simp [eq_comm]
  | some elements => simp

theorem elementsOf_eq_ok {x : Json} (h : ¬ HasNoElements x) :
    ∃ elements, elementsOf x = .ok elements := by
  cases hx : elementsOf x with
  | error e => exact absurd (elementsOf_eq_error_iff.1 hx).1 h
  | ok elements => exact ⟨elements, rfl⟩

theorem exists_isApart_of_itemElements {document : Json} {name : String}
    (h : itemElements document = .error (.noElements name)) :
    ∃ members, document = .object members ∧ IsApart members := by
  unfold itemElements at h
  split at h
  · cases h
  · next members =>
    refine ⟨members, rfl, ?_⟩
    dsimp only at h
    split at h
    · cases h
    · cases h
    · cases h
    · next hitems hthere =>
      refine ⟨hitems, ?_⟩
      by_contra hnone
      push Not at hnone
      exact hthere hnone.1 hnone.2
  · cases h

/-- A list that is not there has no elements that could be missing. -/
theorem hasNoElements_getD_iff {x : Option Json} :
    HasNoElements (x.getD (.list [])) ↔ ∃ y, x = some y ∧ HasNoElements y := by
  cases x with
  | none => exact iff_of_false (fun h => by cases h) (by simp)
  | some y => simp

/-- A document has a value without elements for a list exactly when that is its error. -/
theorem itemElements_eq_noElements_iff {document : Json} {name : String} :
    itemElements document = .error (.noElements name) ↔
      ∃ x, LacksElements document x ∧ name = x.typeName := by
  constructor
  · intro h
    obtain ⟨members, rfl, hapart⟩ := exists_isApart_of_itemElements h
    rw [hapart.itemElements_eq] at h
    rcases bind_eq_error_iff.1 h with h | ⟨tables, htables, h⟩
    · obtain ⟨hnone, he⟩ := elementsOf_eq_error_iff.1 h
      obtain ⟨y, hy, hnone⟩ := hasNoElements_getD_iff.1 hnone
      rw [hy] at he
      exact ⟨y, .tables hapart.1 hy hnone, SchemaError.noElements.inj he⟩
    rcases bind_eq_error_iff.1 h with h | ⟨enumerations, -, h⟩
    · obtain ⟨hnone, he⟩ := elementsOf_eq_error_iff.1 h
      obtain ⟨y, hy, hnone⟩ := hasNoElements_getD_iff.1 hnone
      rw [hy] at he
      refine ⟨y, .enumerations hapart.1 (fun z hz hnone => ?_) hy hnone,
        SchemaError.noElements.inj he⟩
      have herror := elementsOf_eq_error_iff.2 ⟨hasNoElements_getD_iff.2 ⟨z, hz, hnone⟩, rfl⟩
      cases htables.symm.trans herror
    · cases h
  · rintro ⟨x, hlacks, rfl⟩
    cases hlacks with
    | @tables members x hitems htables hx =>
      have hapart : IsApart members := ⟨hitems, .inl (by simp [htables])⟩
      rw [hapart.itemElements_eq, htables]
      exact bind_eq_error_iff.2 (.inl (elementsOf_eq_error_iff.2 ⟨hx, rfl⟩))
    | @enumerations members x hitems htables henumerations hx =>
      have hapart : IsApart members := ⟨hitems, .inr (by simp [henumerations])⟩
      obtain ⟨elements, helements⟩ := elementsOf_eq_ok
        (mt hasNoElements_getD_iff.1 fun ⟨y, hy, hnone⟩ => htables y hy hnone)
      rw [hapart.itemElements_eq, henumerations]
      refine bind_eq_error_iff.2 (.inr ⟨elements, helements, ?_⟩)
      exact bind_eq_error_iff.2 (.inl (elementsOf_eq_error_iff.2 ⟨hx, rfl⟩))

theorem ofJson_eq_noElements_iff {document : Json} {name : String} :
    ofJson document = .error (.noElements name) ↔
      ∃ x, LacksElements document x ∧ name = x.typeName := by
  rw [← itemElements_eq_noElements_iff]
  constructor
  · intro h
    rcases bind_eq_error_iff.1 h with h | ⟨elements, -, h⟩
    · exact h
    · obtain ⟨i, below, fault, -, he⟩ := (readAll_eq_error_iff isLocated_readItem).1 h
      cases he
  · exact fun h => bind_eq_error_iff.2 (.inl h)

/-! ## Sources -/

/-- The text in which a source gives its document: that of a file, or of an answer that is no
error. -/
inductive Supplies (fs : FileSystem) (fetch : Text → Fetched) (source : Text) : String → Prop
  | file {s : String} (hfile : Url.isWebAddress source = .ok false)
      (htext : fs.readText (FilePath.ofText source) = .ok s) : Supplies fs fetch source s
  | answer {response : Response} {s : String} (hweb : Url.isWebAddress source = .ok true)
      (hanswer : fetch source = .ok response) (haccepted : response.refusal? source = none)
      (hbody : response.body = .text s) : Supplies fs fetch source s

/-- A source is not loaded, for a failure that is not reported. -/
inductive Escapes (levels : Nat) (fs : FileSystem) (fetch : Text → Fetched) (source : Text) :
    LoadError → Prop
  | address {fault : Url.Fault} (h : Url.isWebAddress source = .error fault) :
      Escapes levels fs fetch source (.address fault)
  | unusable {e : PathError} (hfile : Url.isWebAddress source = .ok false)
      (h : (FilePath.ofText source).bytes = .error e) :
      Escapes levels fs fetch source (.unusable e)
  | notUtf8 {bytes : List UInt8} {e : Utf8.DecodeError}
      (hfile : Url.isWebAddress source = .ok false)
      (hbytes : fs.readFile (FilePath.ofText source) = .ok bytes)
      (h : Utf8.decode bytes = .error e) : Escapes levels fs fetch source (.notUtf8 e)
  | nesting {s : String} {container : Json.Container} (hs : Supplies fs fetch source s)
      (h : Json.parseNested levels s = .error (.excess (.nesting container))) :
      Escapes levels fs fetch source (.excess (.nesting container))
  /-- Of an answer, the length of a number is reported as a fault of its syntax. -/
  | digits {s : String} {count : Nat} (hfile : Url.isWebAddress source = .ok false)
      (hs : Supplies fs fetch source s)
      (h : Json.parseNested levels s = .error (.excess (.digits count))) :
      Escapes levels fs fetch source (.excess (.digits count))
  | noElements {s : String} {document x : Json} (hs : Supplies fs fetch source s)
      (hdocument : Json.parseNested levels s = .ok document) (hx : LacksElements document x) :
      Escapes levels fs fetch source (.schema (.noElements x.typeName))

theorem Escapes.not_isReported {e : LoadError} (h : Escapes levels fs fetch source e) :
    (Failure.load e).isReported = false := by
  cases h <;> rfl

/-! ## Getting documents -/

theorem ask_eq_unusable_iff {path : FilePath} {e : PathError} :
    FileSystem.ask path = .error (.unusable e) ↔ path.bytes = .error e := by
  unfold FileSystem.ask
  cases path.bytes with
  | error e' => simp [mapError_error, bind, Except.bind]
  | ok bytes =>
    rw [mapError_ok]
    dsimp only [bind, Except.bind]
    split <;> simp [pure, Except.pure]

theorem readFile_eq_unusable_iff {path : FilePath} {e : PathError} :
    fs.readFile path = .error (.unusable e) ↔ path.bytes = .error e := by
  rw [← ask_eq_unusable_iff]
  constructor
  · intro h
    -- Whatever is wrong behind the question is refused.
    rcases bind_eq_error_iff.1 h with h | ⟨node, -, h⟩
    · rcases bind_eq_error_iff.1 h with h | ⟨_, -, h⟩
      · exact h
      rcases bind_eq_error_iff.1 h with h | ⟨here, -, h⟩
      · obtain ⟨fault, -, he⟩ := mapError_eq_error_iff.1 h
        cases he
      rcases bind_eq_error_iff.1 h with h | ⟨there, -, h⟩
      · obtain ⟨fault, -, he⟩ := mapError_eq_error_iff.1 h
        cases he
      · cases h
    · cases node with
      | file bytes => cases h
      | directory entries => cases h
  · exact fun h => bind_eq_error_iff.2 (.inl (bind_eq_error_iff.2 (.inl h)))

/-- The document of a source. -/
def documentAt (levels : Nat) (fs : FileSystem) (fetch : Text → Fetched) (source : Text) :
    Except LoadError Json := do
  if ← (Url.isWebAddress source).mapError .address then
    fetchDocument levels source (fetch source)
  else readDocument levels fs (FilePath.ofText source)

theorem loadItems_fst (source : Text) (document : Except LoadError Json) :
    (loadItems source document).1 = document >>= fun d => (ofJson d).mapError .schema := by
  cases document with
  | error e => rfl
  | ok d =>
    change (loadItems source (.ok d)).1 = (ofJson d).mapError .schema
    unfold loadItems
    dsimp only
    cases ofJson d <;> rfl

/-- A schema is loaded by getting its document and reading the items. -/
theorem load_fst (levels : Nat) (fs : FileSystem) (fetch : Text → Fetched) (source : Text) :
    (load levels fs fetch source).1 =
      documentAt levels fs fetch source >>= fun d => (ofJson d).mapError .schema := by
  unfold load documentAt
  cases Url.isWebAddress source with
  | error fault => rfl
  | ok web =>
    cases web with
    | true => exact loadItems_fst _ _
    | false => exact loadItems_fst _ _

theorem documentAt_of_web (hweb : Url.isWebAddress source = .ok true) :
    documentAt levels fs fetch source = fetchDocument levels source (fetch source) := by
  rw [documentAt, hweb]
  rfl

theorem documentAt_of_file (hfile : Url.isWebAddress source = .ok false) :
    documentAt levels fs fetch source = readDocument levels fs (FilePath.ofText source) := by
  rw [documentAt, hfile]
  rfl

/-- The failure for a text of an answer that holds no document. -/
def answerError (url : Text) : Json.ReadError → LoadError
  | .malformed e => .notFetched url e.message
  | .excess (.digits count) => .responseSyntax url (Json.Excess.digits count).message
  | .excess e => .excess e

theorem fetchDocument_of_text {url : Text} {response : Response} {s : String}
    (haccepted : response.refusal? url = none) (hbody : response.body = .text s) :
    fetchDocument levels url (.ok response) =
      (Json.parseNested levels s).mapError (answerError url) := by
  simp only [fetchDocument, haccepted, hbody]
  rfl

/-- An answer without a text in it is reported. -/
theorem fetchDocument_cases (levels : Nat) (url : Text) (fetched : Fetched) :
    (∃ response s, fetched = .ok response ∧ response.refusal? url = none ∧
        response.body = .text s) ∨
      ∃ e, fetchDocument levels url fetched = .error e ∧ (Failure.load e).isReported = true := by
  cases fetched with
  | error reason => exact .inr ⟨_, rfl, rfl⟩
  | ok response =>
    cases haccepted : response.refusal? url with
    | some reason => exact .inr ⟨_, by rw [fetchDocument, haccepted], rfl⟩
    | none =>
      cases hbody : response.body with
      | unreadable reason => exact .inr ⟨_, by rw [fetchDocument, haccepted, hbody], rfl⟩
      | text s => exact .inl ⟨response, s, rfl, haccepted, hbody⟩

theorem documentAt_eq_ok_iff {document : Json} :
    documentAt levels fs fetch source = .ok document ↔
      ∃ s, Supplies fs fetch source s ∧ Json.parseNested levels s = .ok document := by
  constructor
  · intro h
    obtain ⟨web, hweb, -⟩ := bind_eq_ok_iff.1 h
    have hweb := mapError_eq_ok_iff.1 hweb
    cases web with
    | true =>
      rw [documentAt_of_web hweb] at h
      rcases fetchDocument_cases levels source (fetch source) with
        ⟨response, s, hanswer, haccepted, hbody⟩ | ⟨e, he, -⟩
      · rw [hanswer, fetchDocument_of_text haccepted hbody] at h
        exact ⟨s, .answer hweb hanswer haccepted hbody, mapError_eq_ok_iff.1 h⟩
      · cases he.symm.trans h
    | false =>
      rw [documentAt_of_file hweb] at h
      obtain ⟨s, htext, hparse⟩ := bind_eq_ok_iff.1 (mapError_eq_ok_iff.1 h)
      exact ⟨s, .file hweb htext, mapError_eq_ok_iff.1 hparse⟩
  · rintro ⟨s, hs, hparse⟩
    cases hs with
    | file hfile htext =>
      rw [documentAt_of_file hfile]
      exact mapError_eq_ok_iff.2 (bind_eq_ok_iff.2 ⟨s, htext, mapError_eq_ok_iff.2 hparse⟩)
    | answer hweb hanswer haccepted hbody =>
      rw [documentAt_of_web hweb, hanswer, fetchDocument_of_text haccepted hbody]
      exact mapError_eq_ok_iff.2 hparse

/-- The failure for a text of a file that holds no document. -/
def fileError (path : Text) : Json.ReadError → LoadError
  | .malformed e => .fileSyntax path e
  | .excess e => .excess e

theorem readDocument_of_text {path : FilePath} {s : String} (htext : fs.readText path = .ok s) :
    readDocument levels fs path = (Json.parseNested levels s).mapError (fileError path.toText) := by
  rw [readDocument, FileSystem.readJson, htext]
  change ((Json.parseNested levels s).mapError DocumentError.notJson).mapError _ = _
  cases Json.parseNested levels s with
  | ok document => rfl
  | error e => cases e <;> rfl

/-- Of a file, what is too big to be read is no fault of syntax. -/
theorem documentAt_of_file_excess {s : String} {e : Json.Excess}
    (hfile : Url.isWebAddress source = .ok false)
    (htext : fs.readText (FilePath.ofText source) = .ok s)
    (h : Json.parseNested levels s = .error (.excess e)) :
    documentAt levels fs fetch source = .error (.excess e) := by
  rw [documentAt_of_file hfile, readDocument_of_text htext, h]
  rfl

theorem escapes_of_fetchDocument {e : LoadError} (hweb : Url.isWebAddress source = .ok true)
    (h : fetchDocument levels source (fetch source) = .error e)
    (he : (Failure.load e).isReported = false) : Escapes levels fs fetch source e := by
  rcases fetchDocument_cases levels source (fetch source) with
    ⟨response, s, hanswer, haccepted, hbody⟩ | ⟨e', he', hreported⟩
  · rw [hanswer, fetchDocument_of_text haccepted hbody] at h
    obtain ⟨refusal, hparse, rfl⟩ := mapError_eq_error_iff.1 h
    rcases refusal with fault | count | container
    · cases he
    · cases he
    · exact .nesting (.answer hweb hanswer haccepted hbody) hparse
  · obtain rfl := Except.error.inj (he'.symm.trans h)
    cases hreported.symm.trans he

theorem escapes_of_readDocument {e : LoadError} (hfile : Url.isWebAddress source = .ok false)
    (h : readDocument levels fs (FilePath.ofText source) = .error e)
    (he : (Failure.load e).isReported = false) : Escapes levels fs fetch source e := by
  obtain ⟨e', hjson, rfl⟩ := mapError_eq_error_iff.1 h
  rcases bind_eq_error_iff.1 hjson with htext | ⟨s, htext, hparse⟩
  · rcases bind_eq_error_iff.1 htext with hread | ⟨bytes, hbytes, hdecode⟩
    · obtain ⟨access, haccess, rfl⟩ := mapError_eq_error_iff.1 hread
      cases access with
      | unusable err => exact .unusable hfile (readFile_eq_unusable_iff.1 haccess)
      | refused fault => cases he
    rcases bind_eq_error_iff.1 hdecode with hdecode | ⟨chars, -, hrest⟩
    · obtain ⟨err, hbroken, rfl⟩ := mapError_eq_error_iff.1 hdecode
      exact .notUtf8 hfile (mapError_eq_ok_iff.1 hbytes) hbroken
    · cases hrest
  · obtain ⟨refusal, hrefused, rfl⟩ := mapError_eq_error_iff.1 hparse
    rcases refusal with fault | count | container
    · cases he
    · exact .digits hfile (.file hfile htext) hrefused
    · exact .nesting (.file hfile htext) hrefused

theorem escapes_of_documentAt {e : LoadError} (h : documentAt levels fs fetch source = .error e)
    (he : (Failure.load e).isReported = false) : Escapes levels fs fetch source e := by
  rcases bind_eq_error_iff.1 h with haddress | ⟨web, hweb, -⟩
  · obtain ⟨fault, hfault, rfl⟩ := mapError_eq_error_iff.1 haddress
    exact .address hfault
  have hweb := mapError_eq_ok_iff.1 hweb
  cases web with
  | true => exact escapes_of_fetchDocument hweb (documentAt_of_web hweb ▸ h) he
  | false => exact escapes_of_readDocument hweb (documentAt_of_file hweb ▸ h) he

theorem documentAt_of_escapes {e : LoadError} (h : Escapes levels fs fetch source e) :
    documentAt levels fs fetch source = .error e ∨
      ∃ document x, documentAt levels fs fetch source = .ok document ∧ LacksElements document x ∧
        e = .schema (.noElements x.typeName) := by
  cases h with
  | address h => exact .inl (by rw [documentAt, h]; rfl)
  | @unusable e hfile h =>
    have htext : fs.readText (FilePath.ofText source) = .error (.access (.unusable e)) :=
      bind_eq_error_iff.2 (.inl (mapError_eq_error_iff.2 ⟨_, readFile_eq_unusable_iff.2 h, rfl⟩))
    rw [documentAt_of_file hfile]
    exact .inl (mapError_eq_error_iff.2 ⟨_, bind_eq_error_iff.2 (.inl htext), rfl⟩)
  | @notUtf8 bytes e hfile hbytes h =>
    have htext : fs.readText (FilePath.ofText source) = .error (.notUtf8 e) :=
      bind_eq_error_iff.2 (.inr ⟨bytes, mapError_eq_ok_iff.2 hbytes,
        bind_eq_error_iff.2 (.inl (mapError_eq_error_iff.2 ⟨_, h, rfl⟩))⟩)
    rw [documentAt_of_file hfile]
    exact .inl (mapError_eq_error_iff.2 ⟨_, bind_eq_error_iff.2 (.inl htext), rfl⟩)
  | nesting hs h =>
    cases hs with
    | file hfile htext => exact .inl (documentAt_of_file_excess hfile htext h)
    | answer hweb hanswer haccepted hbody =>
      rw [documentAt_of_web hweb, hanswer, fetchDocument_of_text haccepted hbody]
      exact .inl (mapError_eq_error_iff.2 ⟨_, h, rfl⟩)
  | digits hfile hs h =>
    cases hs with
    | file _ htext => exact .inl (documentAt_of_file_excess hfile htext h)
    | answer hweb => cases hfile.symm.trans hweb
  | noElements hs hdocument hx =>
    exact .inr ⟨_, _, documentAt_eq_ok_iff.2 ⟨_, hs, hdocument⟩, hx, rfl⟩

/-! ## What escapes -/

theorem ofJson_escapes_iff {document : Json} {e : SchemaError} :
    (ofJson document = .error e ∧ (Failure.load (.schema e)).isReported = false) ↔
      ∃ x, LacksElements document x ∧ e = .noElements x.typeName := by
  constructor
  · rintro ⟨h, he⟩
    cases e with
    | noElements name =>
      obtain ⟨x, hx, rfl⟩ := ofJson_eq_noElements_iff.1 h
      exact ⟨x, hx, rfl⟩
    | documentShape => cases he
    | itemsNotList => cases he
    | «at» place fault => cases he
  · rintro ⟨x, hx, rfl⟩
    exact ⟨ofJson_eq_noElements_iff.2 ⟨x, hx, rfl⟩, rfl⟩

theorem escapes_iff {e : LoadError} :
    ((load levels fs fetch source).1 = .error e ∧ (Failure.load e).isReported = false) ↔
      Escapes levels fs fetch source e := by
  rw [load_fst]
  constructor
  · rintro ⟨h, he⟩
    rcases bind_eq_error_iff.1 h with h | ⟨document, hobtained, h⟩
    · exact escapes_of_documentAt h he
    · obtain ⟨e', hitems, rfl⟩ := mapError_eq_error_iff.1 h
      obtain ⟨x, hx, rfl⟩ := ofJson_escapes_iff.1 ⟨hitems, he⟩
      obtain ⟨s, hs, hparse⟩ := documentAt_eq_ok_iff.1 hobtained
      exact .noElements hs hparse hx
  · intro h
    refine ⟨?_, h.not_isReported⟩
    rcases documentAt_of_escapes h with h | ⟨document, x, hobtained, hx, rfl⟩
    · exact bind_eq_error_iff.2 (.inl h)
    · have hitems := (ofJson_escapes_iff.2 ⟨x, hx, rfl⟩).1
      exact bind_eq_error_iff.2
        (.inr ⟨document, hobtained, mapError_eq_error_iff.2 ⟨_, hitems, rfl⟩⟩)

/-- **Which failures to load escape.** Of all failures to load a source, exactly those that
`Escapes` lists are not reported; of all faults of a document, exactly a list that is a value
without elements; and for its size only a source escapes whose text goes beyond the limits. -/
theorem load_escapes (levels : Nat) (fs : FileSystem) (fetch : Text → Fetched) (source : Text) :
    (∀ e, ((load levels fs fetch source).1 = .error e ∧ (Failure.load e).isReported = false) ↔
      Escapes levels fs fetch source e) ∧
    (∀ document e, (ofJson document = .error e ∧ (Failure.load (.schema e)).isReported = false) ↔
      ∃ x, LacksElements document x ∧ e = .noElements x.typeName) ∧
    ∀ e, (load levels fs fetch source).1 = .error (.excess e) →
      ∃ s, Supplies fs fetch source s ∧ Json.Exceeds levels s.toList e := by
  refine ⟨fun e => escapes_iff, fun document e => ofJson_escapes_iff, fun e h => ?_⟩
  cases escapes_iff.1 ⟨h, rfl⟩ with
  | nesting hs hparse => exact ⟨_, hs, Json.exceeds_of_parseNested hparse⟩
  | digits hfile hs hparse => exact ⟨_, hs, Json.exceeds_of_parseNested hparse⟩

/-- A file with a number for its tables, and one that starts with no character. -/
def oddFiles : FileSystem :=
  ⟨[], .directory [("tables.json", .file "\x7b\"list_table\": 5\x7d".toUTF8.toList),
    ("broken.json", .file [0xff])]⟩

/-- What loading a source among them comes to, where no request is answered. -/
def loadOdd (source : Text) : Except LoadError Schema :=
  (load CommandLine.schemaLevels oddFiles (fun _ => .error "no route") source).1

theorem oddSources_escape :
    ofJson (.object [("list_table", .int 5)]) = .error (.noElements "int") ∧
      loadOdd "tables.json" = .error (.schema (.noElements "int")) ∧
      loadOdd "broken.json" = .error (.notUtf8 ⟨.startByte, 0xff, 0, 1⟩) ∧
      loadOdd "http://[" = .error (.address .brackets) ∧
      ∀ e ∈ [.schema (.noElements "int"), .notUtf8 ⟨.startByte, 0xff, 0, 1⟩, .address .brackets],
        (Failure.load e).isReported = false := by
  decide +kernel

end SchemaScribe.Schema
