/-!
# Texts

A text is a row of code points. Most of them are characters; a document may also spell half of a
surrogate pair on its own, which is no character. Such a code point is kept and shown like any
other, until bytes have to be made of it.

A string is a text of characters only. Main statements: `ofString_inj`, and
`toString?_eq_some_iff`, by which a text is a string exactly when it is the text of that string.
-/

namespace SchemaScribe

/-- A code point of a text. -/
inductive CodePoint where
  | scalar (c : Char)
  /-- Half of a surrogate pair, `index` places behind the first of them. -/
  | surrogate (index : Fin 0x800)
  deriving DecidableEq, Repr, Inhabited

namespace CodePoint

/-- The number of a code point. -/
def code : CodePoint → Nat
  | .scalar c => c.toNat
  | .surrogate index => 0xD800 + index.val

/-- The code point of a number; a number beyond the last code point stands for the first. -/
def ofCode (n : Nat) : CodePoint :=
  if h : 0xD800 ≤ n ∧ n < 0xE000 then .surrogate ⟨n - 0xD800, by omega⟩
  else .scalar (Char.ofNat n)

/-- The character that a code point is, if it is one. -/
def char? : CodePoint → Option Char
  | .scalar c => some c
  | .surrogate _ => none

/-- Whether a code point is half of a surrogate pair. -/
def isSurrogate : CodePoint → Bool
  | .scalar _ => false
  | .surrogate _ => true

/-- Whether a code point is a character with the property. -/
def satisfies (p : Char → Bool) : CodePoint → Bool
  | .scalar c => p c
  | .surrogate _ => false

end CodePoint

/-- A row of code points. -/
abbrev Text := List CodePoint

namespace Text

/-- The text of characters. -/
def ofChars (chars : List Char) : Text := chars.map .scalar

/-- The text of a string. -/
def ofString (s : String) : Text := ofChars s.toList

instance : Coe Char CodePoint := ⟨.scalar⟩

instance : Coe String Text := ⟨ofString⟩

/-- The string that a text is, if all its code points are characters. -/
def toString? (t : Text) : Option String := (t.mapM CodePoint.char?).map String.ofList

theorem mapM_char?_ofChars (chars : List Char) :
    (ofChars chars).mapM CodePoint.char? = some chars := by
  induction chars with
  | nil => rfl
  | cons c rest ih =>
    simp only [ofChars] at ih
    simp [ofChars, CodePoint.char?, ih]

theorem eq_ofChars_of_mapM {t : Text} {chars : List Char}
    (h : t.mapM CodePoint.char? = some chars) : t = ofChars chars := by
  induction t generalizing chars with
  | nil =>
    simp only [List.mapM_nil, Option.pure_def, Option.some.injEq] at h
    simp [← h, ofChars]
  | cons x rest ih =>
    cases x with
    | surrogate index => simp [CodePoint.char?] at h
    | scalar c =>
      simp only [List.mapM_cons, CodePoint.char?, Option.pure_def, Option.bind_eq_bind,
        Option.bind_some, Option.bind_eq_some_iff, Option.some.injEq] at h
      obtain ⟨tail, htail, rfl⟩ := h
      simp [ih htail, ofChars]

theorem toString?_ofString (s : String) : toString? (ofString s) = some s := by
  simp [toString?, ofString, mapM_char?_ofChars]

/-- A text is a string exactly when it is the text of that string. -/
theorem toString?_eq_some_iff {t : Text} {s : String} :
    toString? t = some s ↔ t = ofString s := by
  constructor
  · intro h
    obtain ⟨chars, hchars, rfl⟩ := Option.map_eq_some_iff.1 h
    simp [ofString, eq_ofChars_of_mapM hchars]
  · rintro rfl
    exact toString?_ofString s

/-- Different strings are different texts. -/
theorem ofString_inj {s t : String} : ofString s = ofString t ↔ s = t := by
  constructor
  · intro h
    have := congrArg toString? h
    simpa [toString?_ofString] using this
  · rintro rfl
    rfl

theorem ofString_append (s t : String) : ofString (s ++ t) = ofString s ++ ofString t := by
  simp [ofString, ofChars]

end Text

end SchemaScribe
