import SchemaScribe.Path.Basic
import SchemaScribe.Text.Utf8

/-!
# File paths

A path by which a file is opened: where it starts and the names on the way. Empty segments and
`.` are gone, `..` is kept, since only the file system knows what it leads to.

The system is asked for a file by bytes, `FilePath.bytes`. Half of a surrogate pair can stand in
a path when it stands for a byte; any other makes a path that has no bytes. A byte that belongs to
a character can be spelled by itself all the same, so that a name may have several spellings;
`FilePath.plain` is the one under which a directory keeps it.
-/

namespace SchemaScribe

/-- Where a file path starts. -/
inductive Anchor where
  /-- At the working directory. -/
  | here
  /-- At the root, which is written as a slash. -/
  | root
  /-- At the root, which is written as two slashes. -/
  | doubleSlash
  deriving DecidableEq, Repr, Inhabited

/-- How the start of a path is written. -/
def Anchor.toText : Anchor → Text
  | .here => ""
  | .root => "/"
  | .doubleSlash => "//"

/-- The start of a path as it is spelled: two slashes are kept; one, or three and more, are
one. -/
def Anchor.of (path : Text) : Anchor :=
  match path.takeWhile (· = Path.slash) with
  | [] => .here
  | [_, _] => .doubleSlash
  | _ => .root

/-- A path of a file or directory. -/
structure FilePath where
  anchor : Anchor
  parts : List Text
  deriving DecidableEq, Repr, Inhabited

/-- Why the system cannot be asked for a path. -/
inductive PathError where
  /-- A code point of the path stands for no bytes. -/
  | encoding (e : Utf8.EncodeError)
  /-- The path holds the character that ends a path for the system. -/
  | nullByte
  deriving DecidableEq, Repr, Inhabited

/-- The text of an error. -/
def PathError.message : PathError → String
  | .encoding e => e.message
  | .nullByte => "embedded null byte"

namespace FilePath

/-- The path that a text spells. -/
def ofText (t : Text) : FilePath :=
  ⟨.of t, (Path.segments t).filter fun part => part ≠ "" ∧ part ≠ "."⟩

/-- The text of a path; the working directory itself is `.`. -/
def toText (path : FilePath) : Text :=
  if path.anchor = .here ∧ path.parts = [] then "."
  else path.anchor.toText ++ Text.joined "/" path.parts

/-- The path that the text spells when it is read from a directory. -/
def join (path : FilePath) (t : Text) : FilePath :=
  let next := ofText t
  if next.anchor = .here then ⟨path.anchor, path.parts ++ next.parts⟩ else next

/-- The path without its last name; a path with no name is its own parent. -/
def parent (path : FilePath) : FilePath := ⟨path.anchor, path.parts.dropLast⟩

/-- The last name of a path, empty when there is none. -/
def name (path : FilePath) : Text := path.parts.getLast?.getD ""

/-- The place of a path, its `..` taken to go up one name. -/
def location (cwd : Path.Location) (path : FilePath) : Path.Location :=
  Path.walk (if path.anchor = .here then cwd else []) path.parts

/-! ## The bytes of a path -/

/-- The byte that a code point stands for by itself: the halves of pairs from `DC80` to `DCFF`
stand for the bytes from `80` to `FF`. -/
def strayByte? : CodePoint → Option UInt8
  | .scalar _ => none
  | .surrogate index =>
    if 0x480 ≤ index.val ∧ index.val < 0x500 then some (UInt8.ofNat (index.val - 0x400)) else none

/-- The bytes of the code points from an offset on. -/
def encodeFrom (offset : Nat) : Text → Except Utf8.EncodeError (List UInt8)
  | [] => .ok []
  | .scalar c :: rest => (String.utf8EncodeChar c ++ ·) <$> encodeFrom (offset + 1) rest
  | .surrogate index :: rest =>
    match strayByte? (.surrogate index) with
    | some byte => (byte :: ·) <$> encodeFrom (offset + 1) rest
    | none =>
      .error ⟨(CodePoint.surrogate index).code, offset,
        (rest.takeWhile CodePoint.isSurrogate).length + 1⟩

/-- The bytes of a name or a path as a text, for the system. -/
def encode (t : Text) : Except Utf8.EncodeError (List UInt8) := encodeFrom 0 t

/-- The code point that stands for a byte by itself; a byte below `80` is a character. -/
def strayCode (byte : UInt8) : CodePoint :=
  .ofCode (if byte < 0x80 then byte.toNat else 0xDC00 + byte.toNat)

/-- The text of the bytes of a name, where only those that are no UTF-8 stand by themselves. -/
def decode (bytes : List UInt8) : Text := Utf8.decodeWith (·.map strayCode) bytes

/-- The spelling under which a directory keeps a name; names of the same bytes have the same. -/
def plain (name : Text) : Text :=
  match encode name with
  | .ok bytes => decode bytes
  | .error _ => name

/-- The bytes by which the system is asked for the file of a path. -/
def bytes (path : FilePath) : Except PathError (List UInt8) := do
  let bytes ← (encode path.toText).mapError .encoding
  if bytes.contains 0 then .error .nullByte else return bytes

end FilePath

end SchemaScribe
