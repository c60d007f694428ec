import SchemaScribe.FileSystem.Basic
import SchemaScribe.Json.Reader
import SchemaScribe.Notice
import SchemaScribe.Schema.Reader
import SchemaScribe.Source.Url
import SchemaScribe.Text.Lines
import SchemaScribe.Text.Utf8

/-!
# Loading a schema

A schema is read from a file, or fetched from a web address. `Schema.load` finds out which of
the two a source is, reads the document and its items. It never writes: it answers with the
schema or the first thing that went wrong, and with its notices.

The bytes of a file are UTF-8, and each of its line ends counts as one line feed. The text of a
response is taken as it is.
-/

namespace SchemaScribe

/-- The content of a response. -/
inductive Body where
  | text (s : String)
  /-- The content could not be made out, for the given reason. -/
  | unreadable (reason : Text)
  deriving DecidableEq, Repr, Inhabited

/-- The answer to a request. -/
structure Response where
  status : Int
  reason : Option Text
  body : Body
  deriving DecidableEq, Repr, Inhabited

/-- The result of a request: an answer, or the reason why there is none. -/
abbrev Fetched := Except Text Response

/-- Why a schema is not loaded. -/
inductive LoadError where
  | address (fault : Url.Fault)
  /-- The system cannot be asked for the file. -/
  | unusable (e : PathError)
  | unreadable (path : Text) (fault : Fault)
  | notUtf8 (e : Utf8.DecodeError)
  | fileSyntax (path : Text) (e : Json.SyntaxError)
  /-- The document is too big to be read. -/
  | excess (e : Json.Excess)
  | notFetched (url reason : Text)
  | responseSyntax (url reason : Text)
  | schema (e : SchemaError)
  deriving DecidableEq, Repr, Inhabited

/-- The text of an error. -/
def LoadError.message : LoadError → Text
  | .address fault => fault.message
  | .unusable e => e.message
  | .unreadable path fault => "Cannot read schema file " ++ path ++ ": " ++ fault.message path
  | .notUtf8 e => e.message
  | .fileSyntax path e => "Schema file " ++ path ++ " is not valid JSON: " ++ e.message
  | .excess e => e.message
  | .notFetched url reason => "Cannot fetch schema from " ++ url ++ ": " ++ reason
  | .responseSyntax url reason => "Schema at " ++ url ++ " is not valid JSON: " ++ reason
  | .schema e => e.message

/-- Why a file holds no JSON value. -/
inductive DocumentError where
  | access (e : AccessError)
  | notUtf8 (e : Utf8.DecodeError)
  | notJson (e : Json.ReadError)
  deriving DecidableEq, Repr, Inhabited

namespace FileSystem

/-- The text of a file. It is taken to be in UTF-8, also that of a configuration file: for these the
program names no encoding, so that the locale in which it runs is taken to be one with UTF-8. -/
def readText (fs : FileSystem) (path : FilePath) : Except DocumentError String := do
  let bytes ← (fs.readFile path).mapError .access
  let chars ← (Utf8.decode bytes).mapError .notUtf8
  return String.ofList (Text.unifyLineEnds chars)

/-- The JSON value in a file, with containers nested to so many levels. -/
def readJson (levels : Nat) (fs : FileSystem) (path : FilePath) : Except DocumentError Json := do
  let s ← fs.readText path
  (Json.parseNested levels s).mapError .notJson

end FileSystem

namespace Response

/-- The reason for which the status of an answer makes it an error. -/
def refusal? (response : Response) (url : Text) : Option Text :=
  let told (side : String) : Text :=
    Text.decimal response.status ++ " " ++ side ++ " Error: " ++
      response.reason.getD "None" ++ " for url: " ++ url
  if 400 ≤ response.status ∧ response.status < 500 then some (told "Client")
  else if 500 ≤ response.status ∧ response.status < 600 then some (told "Server")
  else none

end Response

namespace Schema

/-- The document in a file. -/
def readDocument (levels : Nat) (fs : FileSystem) (path : FilePath) : Except LoadError Json :=
  (fs.readJson levels path).mapError fun
    | .access (.unusable e) => .unusable e
    | .access (.refused fault) => .unreadable path.toText fault
    | .notUtf8 e => .notUtf8 e
    | .notJson (.malformed e) => .fileSyntax path.toText e
    | .notJson (.excess e) => .excess e

/-- The document in the answer to a request. -/
def fetchDocument (levels : Nat) (url : Text) : Fetched → Except LoadError Json
  | .error reason => .error (.notFetched url reason)
  | .ok response =>
    match response.refusal? url with
    | some reason => .error (.notFetched url reason)
    | none =>
      match response.body with
      | .unreadable reason => .error (.responseSyntax url reason)
      | .text s => (Json.parseNested levels s).mapError fun
        | .malformed e => .notFetched url e.message
        | .excess (.digits count) => .responseSyntax url (Json.Excess.digits count).message
        | .excess e => .excess e

/-- The items of a document, and the notice that they were loaded. -/
def loadItems (source : Text) (document : Except LoadError Json) :
    Except LoadError Schema × List Notice :=
  match document with
  | .error e => (.error e, [])
  | .ok document =>
    match ofJson document with
    | .error e => (.error (.schema e), [])
    | .ok schema => (.ok schema, [.loaded schema.length source])

/-- Loads the schema of a source, with containers nested to so many levels. `fetch` makes the
request when the source is a web address. -/
def load (levels : Nat) (fs : FileSystem) (fetch : Text → Fetched) (source : Text) :
    Except LoadError Schema × List Notice :=
  match Url.isWebAddress source with
  | .error fault => (.error (.address fault), [])
  | .ok true =>
    let (result, notices) := loadItems source (fetchDocument levels source (fetch source))
    (result, .fetching source :: notices)
  | .ok false => loadItems source (readDocument levels fs (FilePath.ofText source))

end Schema

end SchemaScribe
