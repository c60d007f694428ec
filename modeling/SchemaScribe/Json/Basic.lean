import SchemaScribe.Binary64.Basic
import SchemaScribe.Entries

/-!
# JSON values

A value of a document whose shape nothing has checked yet. Objects keep the order of their
members, integers have no size limit, and an integer is told apart from the double of the same
value: `1` and `1.0` are two values.
-/

namespace SchemaScribe

/-- A JSON value. -/
inductive Json where
  | null
  | bool (b : Bool)
  | int (n : Int)
  | float (x : Binary64)
  | text (t : Text)
  | list (elements : List Json)
  | object (members : List (Text × Json))
  deriving Repr, Inhabited

namespace Json

/-! ## Equality -/

mutual

/-- Decides equality of values. -/
def decEq : (a b : Json) → Decidable (a = b)
  | .null, .null => isTrue rfl
  | .bool a, .bool b => decidable_of_iff (a = b) (by simp)
  | .int a, .int b => decidable_of_iff (a = b) (by simp)
  | .float a, .float b => decidable_of_iff (a = b) (by simp)
  | .text a, .text b => decidable_of_iff (a = b) (by simp)
  | .list a, .list b =>
    match decEqList a b with
    | isTrue h => isTrue (by rw [h])
    | isFalse h => isFalse (by simpa using h)
  | .object a, .object b =>
    match decEqMembers a b with
    | isTrue h => isTrue (by rw [h])
    | isFalse h => isFalse (by simpa using h)
  | .null, .bool _ | .null, .int _ | .null, .float _ | .null, .text _ | .null, .list _
  | .null, .object _ | .bool _, .null | .bool _, .int _ | .bool _, .float _ | .bool _, .text _
  | .bool _, .list _ | .bool _, .object _ | .int _, .null | .int _, .bool _ | .int _, .float _
  | .int _, .text _ | .int _, .list _ | .int _, .object _ | .float _, .null | .float _, .bool _
  | .float _, .int _ | .float _, .text _ | .float _, .list _ | .float _, .object _
  | .text _, .null | .text _, .bool _ | .text _, .int _ | .text _, .float _ | .text _, .list _
  | .text _, .object _ | .list _, .null | .list _, .bool _ | .list _, .int _ | .list _, .float _
  | .list _, .text _ | .list _, .object _ | .object _, .null | .object _, .bool _
  | .object _, .int _ | .object _, .float _ | .object _, .text _ | .object _, .list _ =>
    isFalse (by simp)

/-- Decides equality of lists of values. -/
def decEqList : (a b : List Json) → Decidable (a = b)
  | [], [] => isTrue rfl
  | [], _ :: _ | _ :: _, [] => isFalse (by simp)
  | a :: as, b :: bs =>
    match decEq a b, decEqList as bs with
    | isTrue h, isTrue hs => isTrue (by rw [h, hs])
    | isFalse h, _ => isFalse (by simp [h])
    | _, isFalse hs => isFalse (by simp [hs])

/-- Decides equality of members. -/
def decEqMembers : (a b : List (Text × Json)) → Decidable (a = b)
  | [], [] => isTrue rfl
  | [], _ :: _ | _ :: _, [] => isFalse (by simp)
  | (k, a) :: as, (l, b) :: bs =>
    match decEq a b, decEqMembers as bs with
    | isTrue h, isTrue hs =>
      if hk : k = l then isTrue (by rw [h, hs, hk]) else isFalse (by simp [hk])
    | isFalse h, _ => isFalse (by simp [h])
    | _, isFalse hs => isFalse (by simp [hs])

end

instance : DecidableEq Json := decEq

/-! ## Questions to a value -/

/-- The name of the kind of a value, as messages give it. -/
def typeName : Json → String
  | .null => "NoneType"
  | .bool _ => "bool"
  | .int _ => "int"
  | .float _ => "float"
  | .text _ => "str"
  | .list _ => "list"
  | .object _ => "dict"

/-- Whether a value counts as true: `null`, `false`, the zeros and all that is empty do not. -/
def isTruthy : Json → Bool
  | .null => false
  | .bool b => b
  | .int n => n != 0
  | .float x => !x.isZero
  | .text t => !t.isEmpty
  | .list elements => !elements.isEmpty
  | .object members => !members.isEmpty

/-- The text that a value is, if it is one. -/
def text? : Json → Option Text
  | .text t => some t
  | _ => none

/-- The string that a value is, if it is a text of characters only. -/
def string? (x : Json) : Option String := x.text?.bind Text.toString?

/-- Whether a value is made of others. -/
def isCompound : Json → Bool
  | .list _ | .object _ => true
  | _ => false

/-- The elements that a value has: those of a list, the code points of a text, the names in an
object. -/
def elements? : Json → Option (List Json)
  | .list elements => some elements
  | .text t => some (t.map fun x => .text [x])
  | .object members => some (members.map fun (name, _) => .text name)
  | _ => none

/-- The member of an object under a key. -/
def member? (members : List (Text × Json)) (key : Text) : Option Json :=
  Entries.get? members key

/-- The member of an object under a key, and `null` where there is none. -/
def member (members : List (Text × Json)) (key : Text) : Json :=
  (member? members key).getD .null

end Json

end SchemaScribe
