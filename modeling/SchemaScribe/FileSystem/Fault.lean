import SchemaScribe.Text.Digits
import SchemaScribe.Text.Quoted

/-!
# Faults of the file system

Why the system refuses an operation on a file, and the limits that it sets to names and paths.
-/

namespace SchemaScribe

/-- Why an operation on files fails. -/
inductive Fault where
  | notFound
  | denied
  | busy
  | exists
  | notDirectory
  | isDirectory
  | nameTooLong
  deriving DecidableEq, Repr, Inhabited

namespace Fault

/-- The number of a fault. -/
def number : Fault → Nat
  | .notFound => 2
  | .denied => 13
  | .busy => 16
  | .exists => 17
  | .notDirectory => 20
  | .isDirectory => 21
  | .nameTooLong => 36

/-- The wording of a fault. -/
def wording : Fault → String
  | .notFound => "No such file or directory"
  | .denied => "Permission denied"
  | .busy => "Device or resource busy"
  | .exists => "File exists"
  | .notDirectory => "Not a directory"
  | .isDirectory => "Is a directory"
  | .nameTooLong => "File name too long"

/-- The text of a fault of the file of a path. -/
def message (fault : Fault) (path : Text) : String :=
  "[Errno " ++ Text.decimal fault.number ++ "] " ++ fault.wording ++ ": " ++ Text.quoted path

end Fault

/-- The greatest length of a name in bytes. -/
def maxName : Nat := 255

/-- The greatest length of a path in bytes. -/
def maxPath : Nat := 4095

end SchemaScribe
