import SchemaScribe.Source.Host
import SchemaScribe.Text.Quoted

/-!
# Web addresses

A source is a web address when it starts with the scheme `http` or `https` and a colon. Only so
much of it is looked at as tells the scheme, and its authority, the part behind two slashes, in
which brackets have to enclose a host given by number, whatever the scheme is.
-/

namespace SchemaScribe.Url

/-- Why a text can be no address. -/
inductive Fault where
  /-- The brackets do not enclose the host. -/
  | brackets
  /-- The host in brackets is no address of a later version, though it starts as one. -/
  | futureAddress
  /-- The host in brackets is an address that stands without them. -/
  | needlessBrackets
  /-- The host in brackets is no address. -/
  | notANumber (host : Text)
  /-- The authority holds a character that stands for a delimiter. -/
  | disguisedDelimiter (authority : Text)
  deriving DecidableEq, Repr, Inhabited

/-- The text of a fault. -/
def Fault.message : Fault → Text
  | .brackets => "Invalid IPv6 URL"
  | .futureAddress => "IPvFuture address is invalid"
  | .needlessBrackets => "An IPv4 address cannot be in brackets"
  | .notANumber host => Text.quoted host ++ " does not appear to be an IPv4 or IPv6 address"
  | .disguisedDelimiter authority =>
    "netloc '" ++ authority ++ "' contains invalid characters under NFKC normalization"

/-! ## The parts of an address -/

/-- Blanks and control characters before an address, and tabs and line ends anywhere, are no part
of it. -/
def cleaned (source : Text) : Text :=
  (source.dropWhile (·.satisfies (· ≤ ' '))).filter fun x =>
    !x.satisfies fun c => c = '\t' || c = '\r' || c = '\n'

/-- Whether a scheme can start with the character. -/
def isSchemeStart (c : Char) : Bool := c.isAlpha

/-- Whether a scheme can hold the character. -/
def isSchemeChar (c : Char) : Bool := c.isAlphanum || c = '+' || c = '-' || c = '.'

/-- The code point, a capital letter as a small one. -/
def toLower : CodePoint → CodePoint
  | .scalar c => .scalar c.toLower
  | x => x

/-- The parts of a text before and behind the first code point `mark`; nothing is behind it when
it is not there. -/
def cutAt (mark : CodePoint) (t : Text) : Text × Option Text :=
  (t.takeWhile (· ≠ mark), (t.dropWhile (· ≠ mark)).tail?)

/-- The scheme in front of the first colon, in lower case, and what follows the colon. Without a
scheme the whole address is what follows. -/
def splitScheme (address : Text) : Text × Text :=
  match cutAt (.scalar ':') address with
  | (first :: others, some rest) =>
    if first.satisfies isSchemeStart && others.all (·.satisfies isSchemeChar) then
      ((first :: others).map toLower, rest)
    else ([], address)
  | _ => ([], address)

/-- The authority behind two slashes, up to the next delimiter. -/
def authority : Text → Text
  | .scalar '/' :: .scalar '/' :: rest =>
    rest.takeWhile fun x => !x.satisfies fun c => c = '/' || c = '?' || c = '#'
  | _ => []

/-! ## The authority -/

/-- The host of an authority with brackets: what they enclose. The user and an `@` may stand before
them, a colon and whatever follows it after them. -/
def bracketedHost (authority : Text) : Except Fault Text :=
  let host := (Text.split (.scalar '@') authority).getLast?.getD []
  match cutAt (.scalar '[') host with
  | (before, some inside) =>
    let (host, behind) := cutAt (.scalar ']') inside
    let behind := behind.getD []
    if before ≠ [] ∨ (behind ≠ [] ∧ behind.head? ≠ some (.scalar ':')) then .error .brackets
    else .ok host
  | (_, none) => .ok (cutAt (.scalar ':') host).1

/-- Checks a host in brackets. -/
def checkHost (host : Text) : Except Fault Unit :=
  if host.head? == some (.scalar 'v') then
    if Host.isFutureAddress host then .ok () else .error .futureAddress
  else if Host.isIPv4 host then .error .needlessBrackets
  else if Host.isIPv6 host then .ok ()
  else .error (.notANumber host)

/-- Checks the brackets of an authority. -/
def checkBrackets (authority : Text) : Except Fault Unit :=
  match authority.contains (.scalar '['), authority.contains (.scalar ']') with
  | false, false => .ok ()
  | true, true => do checkHost (← bracketedHost authority)
  | _, _ => .error .brackets

/-- The characters whose compatibility form holds one of the delimiters `/`, `?`, `#`, `@`
and `:`. -/
def disguised : List Char :=
  ['\u2047', '\u2048', '\u2049', '\u2100', '\u2101', '\u2105', '\u2106', '\u2a74', '\ufe13',
    '\ufe16', '\ufe55', '\ufe56', '\ufe5f', '\ufe6b', '\uff03', '\uff0f', '\uff1a', '\uff1f',
    '\uff20']

/-- Checks the characters of an authority. -/
def checkCharacters (authority : Text) : Except Fault Unit :=
  if authority.any (·.satisfies disguised.contains) then .error (.disguisedDelimiter authority)
  else .ok ()

/-! ## Sources -/

/-- The scheme of a source, empty when it has none. -/
def scheme (source : Text) : Except Fault Text := do
  let (scheme, rest) := splitScheme (cleaned source)
  let authority := authority rest
  checkBrackets authority
  checkCharacters authority
  return scheme

/-- Whether a source is a web address. -/
def isWebAddress (source : Text) : Except Fault Bool := do
  let scheme ← scheme source
  return scheme == "http" || scheme == "https"

end SchemaScribe.Url
