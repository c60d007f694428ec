import SchemaScribe.Text.Basic
import SchemaScribe.Text.Digits

/-!
# UTF-8

`Utf8.decode` reads the bytes of a file and answers the first fault with the bytes it spans.
`Utf8.encode` writes a text. No bytes can express half of a surrogate pair, so it succeeds exactly
when none is in the text (`encode_isOk`).
-/

namespace SchemaScribe.Utf8

/-! ## Reading -/

/-- Why bytes are not UTF-8. -/
inductive DecodeFault where
  | startByte
  | continuationByte
  | unexpectedEnd
  deriving DecidableEq, Repr, Inhabited

/-- The wording of a fault. -/
def DecodeFault.wording : DecodeFault → String
  | .startByte => "invalid start byte"
  | .continuationByte => "invalid continuation byte"
  | .unexpectedEnd => "unexpected end of data"

/-- A fault in the `length` bytes from an offset, the first of which is `byte`. -/
structure DecodeError where
  fault : DecodeFault
  byte : UInt8
  offset : Nat
  length : Nat
  deriving DecidableEq, Repr, Inhabited

/-- The text of a decoding error. -/
def DecodeError.message (e : DecodeError) : String :=
  let place :=
    if e.length ≤ 1 then
      "byte 0x" ++ String.ofList (Text.hex 2 e.byte.toNat) ++ " in position " ++
        Text.decimal e.offset
    else
      "bytes in position " ++ Text.decimal e.offset ++ "-" ++
        Text.decimal (e.offset + e.length - 1 : Nat)
  "'utf-8' codec can't decode " ++ place ++ ": " ++ e.fault.wording

/-- Whether a byte continues a character. -/
def isContinuation (b : UInt8) : Bool := 0x80 ≤ b && b ≤ 0xBF

/-- Whether a byte can be the second of a character that starts with `a`: the start bytes `E0`
and `F0` leave out overlong forms, `ED` the surrogates and `F4` what is beyond `10FFFF`. -/
def isSecond (a b : UInt8) : Bool :=
  isContinuation b &&
    !((a == 0xE0 && b < 0xA0) || (a == 0xED && 0xA0 ≤ b) ||
      (a == 0xF0 && b < 0x90) || (a == 0xF4 && 0x90 ≤ b))

/-- The character whose code point has these leading bits and these continuation bytes. -/
def assemble (leading : Nat) (continuation : List UInt8) : Char :=
  Char.ofNat (continuation.foldl (fun n b => n * 64 + (b.toNat - 0x80)) leading)

/-- Decodes the bytes from an offset on. -/
def decodeFrom (offset : Nat) : List UInt8 → Except DecodeError (List Char)
  | [] => .ok []
  | a :: rest =>
    let refuse (fault : DecodeFault) (length : Nat) : Except DecodeError (List Char) :=
      .error ⟨fault, a, offset, length⟩
    if a < 0x80 then (Char.ofNat a.toNat :: ·) <$> decodeFrom (offset + 1) rest
    else if a < 0xC2 || 0xF4 < a then refuse .startByte 1
    else match rest with
      | [] => refuse .unexpectedEnd 1
      | b :: rest =>
        if !isSecond a b then refuse .continuationByte 1
        else if a < 0xE0 then
          (assemble (a.toNat - 0xC0) [b] :: ·) <$> decodeFrom (offset + 2) rest
        else match rest with
          | [] => refuse .unexpectedEnd 2
          | c :: rest =>
            if !isContinuation c then refuse .continuationByte 2
            else if a < 0xF0 then
              (assemble (a.toNat - 0xE0) [b, c] :: ·) <$> decodeFrom (offset + 3) rest
            else match rest with
              | [] => refuse .unexpectedEnd 3
              | d :: rest =>
                if !isContinuation d then refuse .continuationByte 3
                else (assemble (a.toNat - 0xF0) [b, c, d] :: ·) <$> decodeFrom (offset + 4) rest

/-- The characters that the bytes encode. -/
def decode (bytes : List UInt8) : Except DecodeError (List Char) := decodeFrom 0 bytes

/-- The text that the bytes encode, `instead` giving what stands for the bytes of a fault; the fuel
bounds the number of faults. -/
def decodeFaulty (instead : List UInt8 → Text) : (fuel : Nat) → List UInt8 → Text
  | 0, _ => []
  | fuel + 1, bytes =>
    match decode bytes with
    | .ok chars => .ofChars chars
    | .error e =>
      let before := ((decode (bytes.take e.offset)).toOption.getD [])
      let (faulty, rest) := (bytes.drop e.offset).splitAt e.length
      .ofChars before ++ instead faulty ++ decodeFaulty instead fuel rest

/-- The text that the bytes encode, `instead` giving what stands for the bytes of a fault. -/
def decodeWith (instead : List UInt8 → Text) (bytes : List UInt8) : Text :=
  decodeFaulty instead (bytes.length + 1) bytes

/-- The text that the bytes encode, with the replacement character in the place of each fault. -/
def decodeLossy (bytes : List UInt8) : Text := decodeWith (fun _ => "\uFFFD") bytes

/-! ## Writing -/

/-- A row of `length` halves of surrogate pairs from an offset on, the first with the given
code. -/
structure EncodeError where
  code : Nat
  offset : Nat
  length : Nat
  deriving DecidableEq, Repr, Inhabited

/-- The text of an encoding error. -/
def EncodeError.message (e : EncodeError) : String :=
  let place :=
    if e.length ≤ 1 then
      "character '\\u" ++ String.ofList (Text.hex 4 e.code) ++ "' in position " ++
        Text.decimal e.offset
    else
      "characters in position " ++ Text.decimal e.offset ++ "-" ++
        Text.decimal (e.offset + e.length - 1 : Nat)
  "'utf-8' codec can't encode " ++ place ++ ": surrogates not allowed"

/-- Encodes the code points from an offset on. -/
def encodeFrom (offset : Nat) : Text → Except EncodeError (List UInt8)
  | [] => .ok []
  | .scalar c :: rest => (String.utf8EncodeChar c ++ ·) <$> encodeFrom (offset + 1) rest
  | .surrogate index :: rest =>
    .error ⟨(CodePoint.surrogate index).code, offset,
      (rest.takeWhile CodePoint.isSurrogate).length + 1⟩

/-- The bytes of a text. -/
def encode (t : Text) : Except EncodeError (List UInt8) := encodeFrom 0 t

/-- The bytes of characters. -/
def bytes (chars : List Char) : List UInt8 := chars.flatMap String.utf8EncodeChar

theorem encodeFrom_ofChars (offset : Nat) (chars : List Char) :
    encodeFrom offset (Text.ofChars chars) = .ok (bytes chars) := by
  induction chars generalizing offset with
  | nil => rfl
  | cons c rest ih =>
    simp only [Text.ofChars, bytes] at ih
    simp only [Text.ofChars, bytes, List.map_cons, encodeFrom, ih, List.flatMap_cons]
    rfl

/-- A string can be written. -/
theorem encode_ofString (s : String) : encode (.ofString s) = .ok (bytes s.toList) :=
  encodeFrom_ofChars 0 s.toList

theorem encodeFrom_isOk (offset : Nat) (t : Text) :
    (encodeFrom offset t).isOk = t.all (!·.isSurrogate) := by
  induction t generalizing offset with
  | nil => rfl
  | cons x rest ih =>
    cases x with
    | surrogate index => rfl
    | scalar c =>
      have step : (encodeFrom offset (.scalar c :: rest)).isOk =
          (encodeFrom (offset + 1) rest).isOk := by
        rw [encodeFrom]
        cases encodeFrom (offset + 1) rest <;> rfl
      rw [step, ih]
      rfl

/-- A text can be written exactly when no half of a surrogate pair stands in it. -/
theorem encode_isOk (t : Text) : (encode t).isOk = t.all (!·.isSurrogate) := encodeFrom_isOk 0 t

end SchemaScribe.Utf8
