import SchemaScribe.Text.Joined

/-!
# Slash-separated paths

A path is a text; its segments are what stands between slashes. `Path.join`, `Path.directory` and
`Path.relative` are the operations by which the generated modules are named and refer to each
other. Nothing but `Path.absolute` gives a meaning to the segments `.` and `..`: it walks from a
working directory, given by its segments, to the place that a path names, and two paths name the
same place when it gives the same segments for both.
-/

namespace SchemaScribe.Path

/-- A path from the root of the file system: the names of the directories on the way. -/
abbrev Location := List Text

/-- What separates segments. -/
def slash : CodePoint := .scalar '/'

/-! ## Segments -/

/-- The parts of a path between slashes, empty ones included; there is always at least one. -/
def segments (path : Text) : List Text := Text.split slash path

/-- Whether a path starts at the root. -/
def isAbsolute (path : Text) : Bool := path.head? == some slash

/-- Whether the last code point of a path is a slash. -/
def endsWithSlash (path : Text) : Bool := path.getLast? == some slash

/-! ## Places -/

/-- Goes one segment further: an empty segment and `.` stay, `..` goes up and stays at the
root. -/
def step (place : Location) (segment : Text) : Location :=
  if segment = "" ∨ segment = "." then place
  else if segment = ".." then place.dropLast
  else place ++ [segment]

/-- Walks along the segments. -/
def walk (start : Location) (segments : List Text) : Location := segments.foldl step start

/-- The place that a path names, seen from a working directory. -/
def absolute (cwd : Location) (path : Text) : Location :=
  walk (if isAbsolute path then [] else cwd) (segments path)

/-- The absolute path of a place. -/
def ofLocation (place : Location) : Text := "/" ++ Text.joined "/" place

/-! ## Operations on paths -/

/-- The second path as seen from the first: an absolute second path stands alone, and else a
slash goes between the two unless there is one or nothing stands before it. -/
def join (path next : Text) : Text :=
  if isAbsolute next then next
  else if path = "" ∨ endsWithSlash path then path ++ next
  else path ++ "/" ++ next

/-- The path up to its last slash, without the slashes at the end unless it has nothing else. -/
def directory (path : Text) : Text :=
  let head := path.reverse.dropWhile (· ≠ slash)
  let stripped := head.dropWhile (· = slash)
  if stripped.isEmpty then head.reverse else stripped.reverse

/-- The number of segments that two places share from the root on. -/
def common : Location → Location → Nat
  | a :: as, b :: bs => if a = b then common as bs + 1 else 0
  | _, _ => 0

/-- The way from one place to another: up to the last place on both ways, and down from there.
It is `.` when the two are the same. -/
def route (start target : Location) : Text :=
  let shared := common start target
  match List.replicate (start.length - shared) (".." : Text) ++ target.drop shared with
  | [] => "."
  | way => Text.joined "/" way

/-- The relative path that leads from the place of `start` to the place of `target`. -/
def relative (cwd : Location) (target start : Text) : Text :=
  route (absolute cwd start) (absolute cwd target)

end SchemaScribe.Path
