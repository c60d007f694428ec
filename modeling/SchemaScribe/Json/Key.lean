import SchemaScribe.Json.Basic

/-!
# Values that are equal

Two values may be written in different ways and still be equal when they are compared: a Boolean
counts as zero or one, an integer is equal to the double of the same value, and the order of the
members of an object does not matter. `Json.key` gives one value for all that are equal to each
other; whatever is found by a value is found by its key.

The result of an undefined operation is found where it was put, but compares unequal to itself;
this is the whole difference between equal keys and `Json.equals`.
-/

namespace SchemaScribe

/-- The integer that a double is, if it is one. -/
def Binary64.integer? : Binary64 → Option Int
  | .finite negative m q =>
    let (n, d) := scaleDown m 1 (-q)
    if n % d = 0 then some (if negative then -((n / d : Nat) : Int) else (n / d : Nat)) else none
  | _ => none

namespace Json

/-- Puts a member in front of the first whose name comes behind its own. -/
def insertMember (member : Text × Json) : List (Text × Json) → List (Text × Json)
  | [] => [member]
  | next :: rest =>
    if member.1.map CodePoint.code ≤ next.1.map CodePoint.code then member :: next :: rest
    else next :: insertMember member rest

mutual

/-- The value that stands for all that are equal to a value. -/
def key : Json → Json
  | .bool b => .int (if b then 1 else 0)
  | .float x => (x.integer?.map Json.int).getD (.float x)
  | .list elements => .list (keys elements)
  | .object members => .object (memberKeys members)
  | x => x

/-- The keys of the elements of a list. -/
def keys : List Json → List Json
  | [] => []
  | x :: rest => x.key :: keys rest

/-- The members of an object in the order of their names, each with the key of its value. -/
def memberKeys : List (Text × Json) → List (Text × Json)
  | [] => []
  | (name, x) :: rest => insertMember (name, x.key) (memberKeys rest)

end

/-- A text is equal to no value but itself. -/
theorem key_eq_text_iff {x : Json} {t : Text} : x.key = .text t ↔ x = .text t := by
  cases x with
  | float x => cases h : x.integer? <;> simp [key, h]
  | _ => simp [key]

/-- Whether two values compare equal. -/
def equals (a b : Json) : Bool := a.key = b.key && a != .float .nan

/-- A text compares equal to no value but itself. -/
theorem equals_text_iff {x : Json} {t : Text} : x.equals (.text t) = true ↔ x = .text t := by
  rw [← key_eq_text_iff, equals]
  constructor
  · intro h
    exact of_decide_eq_true (Bool.and_eq_true_iff.1 h).1
  · intro h
    obtain rfl := key_eq_text_iff.1 h
    simp [key]

end Json

end SchemaScribe
