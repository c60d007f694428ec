import SchemaScribe.Text.Digits
import SchemaScribe.Text.Joined

/-!
# Hosts given by number

The forms in which the host of a web address can be given by a number: `isIPv4` for four octets
with points between them, `isIPv6` for eight groups of hexadecimal digits with colons between
them, and `isFutureAddress` for the form that is kept free for later versions.
-/

namespace SchemaScribe.Host

/-- Whether all code points of a text are characters with the property. -/
def allSatisfy (p : Char → Bool) (t : Text) : Bool := t.all (·.satisfies p)

/-- The number that a row of decimal digits stands for. -/
def valueOf (t : Text) : Nat := Text.ofDigits (t.filterMap CodePoint.char?)

/-- Whether a text is a number from 0 to 255 in at most three digits, without a zero in front. -/
def isOctet (t : Text) : Bool :=
  !t.isEmpty && t.length ≤ 3 && allSatisfy Text.isDigit t &&
    (t == "0" || t.head? != some (.scalar '0')) && valueOf t ≤ 255

/-- Whether a text is four octets with points between them. -/
def isIPv4 (t : Text) : Bool :=
  let octets := Text.split (.scalar '.') t
  octets.length == 4 && octets.all isOctet

/-- Whether a text is a group of one to four hexadecimal digits. -/
def isGroup (t : Text) : Bool :=
  !t.isEmpty && t.length ≤ 4 && allSatisfy (fun c => (Text.hexValue? c).isSome) t

/-- The parts of an address between colons; four octets at the end count as two groups. Nothing
when the last part has points and is not four octets. -/
def groups? (t : Text) : Option (List Text) :=
  let parts := Text.split (.scalar ':') t
  let last := parts.getLast?.getD []
  if last.contains (.scalar '.') then
    if isIPv4 last then some (parts.dropLast ++ (["0", "0"] : List Text)) else none
  else some parts

/-- Whether the parts, those at both ends aside, say where groups are left out: the number of
groups before and behind the place, a part at an end being empty only if it belongs to it. -/
def aroundGap? (parts : List Text) : Option (List Text × List Text) :=
  let inner := parts.tail.dropLast
  if inner.count [] = 1 then
    let before := parts.head?.toList ++ inner.takeWhile (· ≠ [])
    let behind := (inner.dropWhile (· ≠ [])).tail ++ parts.getLast?.toList
    some (if before == [[]] then [] else before, if behind == [[]] then [] else behind)
  else none

/-- Whether a text is eight groups with colons between them. Once, groups can be left out between
two colons. -/
def isIPv6Number (t : Text) : Bool :=
  3 ≤ (Text.split (.scalar ':') t).length &&
    match groups? t with
    | none => false
    | some parts =>
      parts.length ≤ 9 &&
        match aroundGap? parts with
        | some (before, behind) =>
          before.length + behind.length < 8 && before.all isGroup && behind.all isGroup
        | none => parts.length == 8 && parts.all isGroup

/-- Whether a text is an address of eight groups, perhaps with the name of a zone behind a percent
sign. -/
def isIPv6 (t : Text) : Bool :=
  match Text.split (.scalar '%') t with
  | [number] => isIPv6Number number
  | [number, zone] => !zone.isEmpty && isIPv6Number number
  | _ => false

/-- Whether a text that starts with `v` is an address of a later version: its number in
hexadecimal, a point, and anything behind it. -/
def isFutureAddress (t : Text) : Bool :=
  let isHex (x : CodePoint) : Bool := x.satisfies fun c => (Text.hexValue? c).isSome
  let version := t.tail.takeWhile isHex
  match t.tail.dropWhile isHex with
  | point :: rest => !version.isEmpty && point == .scalar '.' && !rest.isEmpty
  | [] => false

end SchemaScribe.Host
