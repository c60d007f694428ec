import SchemaScribe.Json.Display
import SchemaScribe.Schema.Basic
import SchemaScribe.Text.Digits

/-!
# Notices

What a run tells about its work while it goes on, in the order in which it happens.
-/

namespace SchemaScribe

/-- The importance of a notice. -/
inductive Level where
  | debug
  | info
  | warning
  deriving DecidableEq, Repr, Inhabited

/-- The word for a level. -/
def Level.word : Level → String
  | .debug => "DEBUG"
  | .info => "INFO"
  | .warning => "WARNING"

/-- An event that a run tells about. -/
inductive Notice where
  /-- A schema is about to be fetched. -/
  | fetching (url : Text)
  /-- A schema was read. -/
  | loaded (items : Nat) (source : Text)
  /-- A file was generated for an item. -/
  | generated (kind : ItemKind) (name : Name) (file : Text)
  /-- An item takes the place of an earlier one of its kind and name. -/
  | duplicate (kind : ItemKind) (name : Name) (file : Text)
  /-- A schema was compiled. -/
  | compiled (tables enumerations : Nat)
  /-- A file was written. -/
  | wrote (file : Text)
  /-- All files were written. -/
  | wroteAll (files : Nat) (folder : Text)
  deriving DecidableEq, Repr, Inhabited

namespace Notice

/-- The importance of an event. -/
def level : Notice → Level
  | .fetching _ | .generated .. | .wrote _ => .debug
  | .loaded .. | .compiled .. | .wroteAll .. => .info
  | .duplicate .. => .warning

/-- What is told about an event. -/
def message : Notice → Text
  | .fetching url => "Fetching schema from " ++ url
  | .loaded n source => "Loaded " ++ Text.decimal n ++ " items from " ++ source
  | .generated kind name file => "Generated " ++ kind.name ++ " " ++ name.toText ++ ": " ++ file
  | .duplicate kind name file =>
    "Duplicate " ++ kind.name ++ " name '" ++ name.toText ++
      "': the last definition overwrites " ++ file
  | .compiled tables enumerations =>
    "Compiled " ++ Text.decimal tables ++ " tables and " ++ Text.decimal enumerations ++ " enums"
  | .wrote file => "Wrote " ++ file
  | .wroteAll n folder => "Wrote " ++ Text.decimal n ++ " files to " ++ folder

/-- The line of an event: its level and what is told. -/
def line (notice : Notice) : Text := notice.level.word ++ ": " ++ notice.message

end Notice

end SchemaScribe
