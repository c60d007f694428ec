import SchemaScribe.Proofs.Json.Unified
import SchemaScribe.Proofs.Source.Escapes

/-!
# One text from two sources

A text is loaded from a file, and the same text from an answer (`same_text_loaded`). If it holds a
document, both loads come to the same, be it the items or an error in them; a document nested too
deeply is refused in the same way. But a text that is not JSON is reported of the file as just that
and of the answer as if the answer could not be fetched; and a number that is too long escapes from
the file only.

The line ends of a file are unified before it is read, those of an answer are not. This makes no
difference but to the place of a fault.
-/

namespace SchemaScribe.Schema

variable {levels : Nat} {fs : FileSystem} {fetch : Text → Fetched} {path url : Text}
  {bytes : List UInt8} {chars : List Char} {response : Response}

/-- What loading a text from a file comes to, beside what loading it from an answer does. -/
inductive SameText (levels : Nat) (chars : List Char) (path url : Text) :
    Except LoadError Schema → Except LoadError Schema → Prop
  /-- The text holds a document. -/
  | document {document : Json}
      (h : Json.parseNested levels (String.ofList chars) = .ok document) :
      SameText levels chars path url ((ofJson document).mapError .schema)
        ((ofJson document).mapError .schema)
  /-- The text is not JSON. The fault is the same, and so is its place, if no line ends were
  changed. -/
  | notJson {e e' : Json.SyntaxError}
      (h : Json.parseNested levels (String.ofList chars) = .error (.malformed e'))
      (hfault : e.fault = e'.fault) (hplace : '\r' ∉ chars → e = e') :
      SameText levels chars path url (.error (.fileSyntax (FilePath.ofText path).toText e))
        (.error (.notFetched url e'.message))
  | digits {count : Nat}
      (h : Json.parseNested levels (String.ofList chars) = .error (.excess (.digits count))) :
      SameText levels chars path url (.error (.excess (.digits count)))
        (.error (.responseSyntax url (Json.Excess.digits count).message))
  | nesting {container : Json.Container}
      (h : Json.parseNested levels (String.ofList chars) = .error (.excess (.nesting container))) :
      SameText levels chars path url (.error (.excess (.nesting container)))
        (.error (.excess (.nesting container)))

theorem readText_of_decode {path : FilePath} (hbytes : fs.readFile path = .ok bytes)
    (hchars : Utf8.decode bytes = .ok chars) :
    fs.readText path = .ok (String.ofList (Text.unifyLineEnds chars)) := by
  rw [FileSystem.readText, hbytes, mapError_ok]
  dsimp only [bind, Except.bind]
  rw [hchars]
  rfl

/-- **A text is loaded alike from a file and from an answer, unless it is not JSON or one of its
numbers is too long.** The file holds the text in UTF-8. That the answer holds it too (`hbody`) says
that its bytes are decoded as UTF-8, as they are when the answer declares that charset; where it
declares none, a byte order mark in front is not part of the text. -/
theorem same_text_loaded (levels : Nat) (hfile : Url.isWebAddress path = .ok false)
    (hbytes : fs.readFile (FilePath.ofText path) = .ok bytes)
    (hchars : Utf8.decode bytes = .ok chars) (hweb : Url.isWebAddress url = .ok true)
    (hanswer : fetch url = .ok response) (haccepted : response.refusal? url = none)
    (hbody : response.body = .text (String.ofList chars)) :
    SameText levels chars path url (load levels fs fetch path).1 (load levels fs fetch url).1 := by
  rw [load_fst, load_fst, documentAt_of_file hfile, documentAt_of_web hweb, hanswer,
    readDocument_of_text (readText_of_decode hbytes hchars),
    fetchDocument_of_text haccepted hbody]
  have halike := Json.readsAlike_unifyLineEnds levels chars
  have hsame (hnone : '\r' ∉ chars) : Text.unifyLineEnds chars = chars :=
    ((unifiesTo_unifyLineEnds chars).eq_of_not_mem hnone).symm
  generalize hunified : Json.parseNested levels (String.ofList (Text.unifyLineEnds chars)) = inFile,
    htext : Json.parseNested levels (String.ofList chars) = inAnswer at halike ⊢
  cases halike with
  | ok document => exact .document htext
  | @malformed e' e hfault =>
    refine .notJson htext hfault.symm fun hnone => ?_
    rw [hsame hnone, htext] at hunified
    exact (Json.ReadError.malformed.inj (Except.error.inj hunified)).symm
  | excess excess =>
    cases excess with
    | digits count => exact .digits htext
    | nesting container => exact .nesting htext

/-- A file system with a text in one file. -/
def fileWith (s : String) : FileSystem :=
  ⟨[], .directory [("schema.json", .file s.toUTF8.toList)]⟩

/-- An answer with a text. -/
def answerWith (s : String) : Response := ⟨200, some "OK", .text s⟩

/-- What loading a text comes to, from that file or from that answer. -/
def loadText (s : String) (source : Text) : Except LoadError Schema :=
  (load CommandLine.schemaLevels (fileWith s) (fun _ => .ok (answerWith s)) source).1

/-- A table over three lines, with line ends of two characters. -/
def threeLines : String :=
  "[\x7b\"type\": \"table\",\r\n\"name\": \"T\",\r\n\"columns\": []\x7d]"

theorem same_text_loaded_threeLines :
    SameText CommandLine.schemaLevels threeLines.toList "schema.json"
      "http://example.com/schema.json" (loadText threeLines "schema.json")
      (loadText threeLines "http://example.com/schema.json") ∧
    loadText threeLines "schema.json" = .ok [.table ⟨.text "T", []⟩] ∧
    loadText threeLines "http://example.com/schema.json" = .ok [.table ⟨.text "T", []⟩] := by
  have hfile : Url.isWebAddress "schema.json" = .ok false := by decide +kernel
  have hbytes : (fileWith threeLines).readFile (FilePath.ofText "schema.json") =
      .ok threeLines.toUTF8.toList := by decide +kernel
  have hchars : Utf8.decode threeLines.toUTF8.toList = .ok threeLines.toList := by decide +kernel
  have hweb : Url.isWebAddress "http://example.com/schema.json" = .ok true := by decide +kernel
  have haccepted : (answerWith threeLines).refusal? "http://example.com/schema.json" = none := by
    decide +kernel
  have hbody : (answerWith threeLines).body = .text (String.ofList threeLines.toList) := by
    rw [String.ofList_toList]
    rfl
  exact ⟨same_text_loaded CommandLine.schemaLevels hfile hbytes hchars hweb
    rfl haccepted hbody, by decide +kernel,
    by decide +kernel⟩

/-- An object that is not closed is no JSON, but only the file is said to hold none. -/
theorem unclosed_notFetched :
    loadText "\x7b" "schema.json" = .error (.fileSyntax "schema.json" ⟨.expectingName, 1, 1, 2⟩) ∧
    loadText "\x7b" "http://example.com/schema.json" =
      .error (.notFetched "http://example.com/schema.json"
        "Expecting property name enclosed in double quotes: line 1 column 2 (char 1)") := by
  decide +kernel

end SchemaScribe.Schema
