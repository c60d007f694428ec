import SchemaScribe.Json.Reader

/-!
# Equations of the reader

Each reader is described by what it does at the character it finds: one equation for each character
that means something to it and one for all others. A word or a number is the first of the `words`
that stands at the cursor, or else the numeral there (`scalar_eq`); the parts of a numeral that can
be left out are taken by `optionally`.
-/

namespace SchemaScribe.Json.Reader

variable {α : Type} {chars rest : List Char}

/-! ## Texts -/

/-- The code of an escape by four hexadecimal digits that does not end the text, and what follows
it. -/
def codeEscape? : List Char → Option (Nat × List Char)
  | a :: b :: c :: d :: x :: rest => (codeUnit? a b c d).map fun code => (code, x :: rest)
  | _ => none

theorem codes_quote (start offset : Nat) (rest : List Char) :
    codes start offset ('"' :: rest) = .ok ([], ⟨offset + 1, rest⟩) := by
  rw [codes]

theorem codes_codeEscape (start offset : Nat) (rest : List Char) :
    codes start offset ('\\' :: 'u' :: rest) = match codeEscape? rest with
      | some (code, rest) =>
        codes start (offset + 6) rest >>= fun p => pure (code :: p.1, p.2)
      | none => .error (.fault .invalidCodeEscape (offset + 1)) := by
  match rest with
  | a :: b :: c :: d :: x :: rest =>
    rw [codes, codeEscape?]
    cases codeUnit? a b c d <;> rfl
  | [a, b, c, d] =>
    rw [codes, codeEscape?]
    · cases codeUnit? a b c d <;> rfl
    · simp
  | [a, b, c] => rfl
  | [a, b] => rfl
  | [a] => rfl
  | [] => rfl

theorem codes_simpleEscape {c : Char} (hc : c ≠ 'u') (start offset : Nat) (rest : List Char) :
    codes start offset ('\\' :: c :: rest) = match simpleEscape? c with
      | none => .error (.fault .invalidEscape offset)
      | some c => codes start (offset + 2) rest >>= fun p => pure (c.toNat :: p.1, p.2) := by
  rw [codes.eq_def]
  split
  · next h => cases h
  · next h => cases h
  · next h => exact absurd (by cases h; rfl) hc
  · next h => exact absurd (by cases h; rfl) hc
  · next h => cases h
  · next h => cases h; rfl
  · next hescape h =>
    cases h
    exact absurd rfl (hescape c rest rfl)

theorem codes_plain {c : Char} (hquote : c ≠ '"') (hescape : c ≠ '\\') (start offset : Nat)
    (rest : List Char) :
    codes start offset (c :: rest) =
      if c < ' ' then .error (.fault .controlCharacter offset)
      else codes start (offset + 1) rest >>= fun p => pure (c.toNat :: p.1, p.2) := by
  rw [codes]
  · exact fun h => hquote h
  · exact fun _ _ _ _ _ h => absurd h hescape
  · exact fun _ h => absurd h hescape
  · exact fun h => absurd h hescape
  · exact fun _ _ h => absurd h hescape

theorem codeEscape?_eq_some_iff {code : Nat} :
    codeEscape? chars = some (code, rest) ↔ rest ≠ [] ∧ ∃ a b c d,
      codeUnit? a b c d = some code ∧ chars = [a, b, c, d] ++ rest := by
  constructor
  · intro h
    unfold codeEscape? at h
    split at h
    · next a b c d x more =>
      obtain ⟨n, hn, hpair⟩ := Option.map_eq_some_iff.1 h
      obtain ⟨rfl, rfl⟩ := Prod.mk.inj hpair
      exact ⟨by simp, a, b, c, d, hn, rfl⟩
    · cases h
  · rintro ⟨hrest, a, b, c, d, hcode, rfl⟩
    obtain ⟨x, more, rfl⟩ := List.exists_cons_of_ne_nil hrest
    simp [codeEscape?, hcode]

/-! ## Numbers and words -/

/-- The digits at the start of a row, and what follows them; there has to be one. -/
def digits? (chars : List Char) : Option (List Char × List Char) :=
  match chars.takeWhile Text.isDigit with
  | [] => none
  | digits => some (digits, chars.dropWhile Text.isDigit)

theorem fraction?_point (rest : List Char) : fraction? ('.' :: rest) = digits? rest := by
  cases rest with
  | nil => rfl
  | cons d rest =>
    rw [fraction?, digits?, List.takeWhile_cons, List.dropWhile_cons]
    cases hd : Text.isDigit d <;> rfl

theorem fraction?_of_ne {c : Char} (hc : c ≠ '.') (rest : List Char) :
    fraction? (c :: rest) = none := by
  unfold fraction?
  split
  · next h => exact absurd (List.cons.inj h).1 hc
  · rfl

/-- The sign at the start of a row, if there is one, and what follows it. -/
def sign : List Char → Option Char × List Char
  | '-' :: rest => (some '-', rest)
  | '+' :: rest => (some '+', rest)
  | rest => (none, rest)

theorem sign_of_ne {c : Char} (hminus : c ≠ '-') (hplus : c ≠ '+') (rest : List Char) :
    sign (c :: rest) = (none, c :: rest) := by
  rw [sign]
  · exact fun _ h => absurd (List.cons.inj h).1 hminus
  · exact fun _ h => absurd (List.cons.inj h).1 hplus

theorem exponent?_cons (c : Char) (rest : List Char) :
    exponent? (c :: rest) =
      if c = 'e' || c = 'E' then
        (digits? (sign rest).2).map fun part => (((sign rest).1, part.1), part.2)
      else none := by
  change (if c = 'e' || c = 'E' then
      match (sign rest).2.takeWhile Text.isDigit with
      | [] => none
      | digits => some (((sign rest).1, digits), (sign rest).2.dropWhile Text.isDigit)
    else none) = _
  rw [digits?]
  split
  · cases (sign rest).2.takeWhile Text.isDigit <;> rfl
  · rfl

/-- A part that may be left out, and what follows it. -/
def optionally (take : List Char → Option (α × List Char)) (chars : List Char) :
    Option α × List Char :=
  match take chars with
  | some (a, rest) => (some a, rest)
  | none => (none, chars)

theorem numeral?_eq (negative : Bool) (chars : List Char) :
    numeral? negative chars = (whole? chars).map fun (whole, rest) =>
      let (fraction, rest) := optionally fraction? rest
      let (exponent, rest) := optionally exponent? rest
      (⟨negative, whole, fraction, exponent⟩, rest) := by
  unfold numeral?
  cases whole? chars with
  | none => rfl
  | some found =>
    dsimp only [bind, Option.bind, Option.map, optionally]
    cases fraction? found.2 with
    | none => cases exponent? found.2 <;> rfl
    | some fraction => cases exponent? fraction.2 <;> rfl

/-- A numeral with its sign, if it has one. -/
def signed? : List Char → Option (Numeral × List Char)
  | '-' :: digits => numeral? true digits
  | digits => numeral? false digits

/-- The words that stand for values. -/
def words : List (List Char × Json) :=
  [(['n', 'u', 'l', 'l'], .null), (['t', 'r', 'u', 'e'], .bool true),
    (['f', 'a', 'l', 's', 'e'], .bool false), (['N', 'a', 'N'], .float .nan),
    (['I', 'n', 'f', 'i', 'n', 'i', 't', 'y'], .float (.infinite false)),
    (['-', 'I', 'n', 'f', 'i', 'n', 'i', 't', 'y'], .float (.infinite true))]

/-- The value at a cursor is that of the word that stands there, and else of the number. -/
theorem scalar_eq (c : Cursor) :
    scalar c = match words.find? (·.1.isPrefixOf c.rest) with
      | some (word, x) => .ok (x, ⟨c.offset + word.length, c.rest.drop word.length⟩)
      | none => match signed? c.rest with
        | none => .error (.fault .expectingValue c.offset)
        | some (n, rest) =>
          if n.isInteger && maxDigits < n.whole.length then
            .error (.excess (.digits n.whole.length))
          else .ok (n.value, ⟨c.offset + n.length, rest⟩) := by
  unfold scalar
  split
  · next h => rw [h]; rfl
  · next h => rw [h]; rfl
  · next h => rw [h]; rfl
  · next h => rw [h]; rfl
  · next h => rw [h]; rfl
  · next h => rw [h]; rfl
  · next hnull htrue hfalse hnan hinfinity hnegative =>
    have hnone : words.find? (·.1.isPrefixOf c.rest) = none := by
      have hword : ∀ {word : List Char}, (∀ rest, c.rest = word ++ rest → False) →
          ¬ word.isPrefixOf c.rest = true := by
        intro word hne h
        obtain ⟨rest, hrest⟩ := List.isPrefixOf_iff_prefix.1 h
        exact hne rest hrest.symm
      simp only [List.find?_eq_none, words, List.forall_mem_cons]
      exact ⟨hword hnull, hword htrue, hword hfalse, hword hnan, hword hinfinity,
        hword hnegative, by simp⟩
    rw [hnone]
    rfl

/-! ## Values and documents -/

/-- A value that starts with no quote and no opening bracket is a word or a number. -/
theorem value_scalar {x : Char} (hquote : x ≠ '"') (hobject : x ≠ '\x7b') (hlist : x ≠ '[')
    (fuel levels offset : Nat) (rest : List Char) :
    value (fuel + 1) levels ⟨offset, x :: rest⟩ = scalar ⟨offset, x :: rest⟩ := by
  rw [value.eq_def]
  dsimp only
  split
  · next h => exact absurd (List.cons.inj h).1 hquote
  · next h => exact absurd (List.cons.inj h).1 hobject
  · next h => exact absurd (List.cons.inj h).1 hobject
  · next h => exact absurd (List.cons.inj h).1 hlist
  · next h => exact absurd (List.cons.inj h).1 hlist
  · rfl

theorem value_object (fuel levels offset : Nat) (rest : List Char) :
    value (fuel + 1) (levels + 1) ⟨offset, '\x7b' :: rest⟩ =
      match (skipBlanks (offset + 1) rest).rest with
      | '\x7d' :: more => .ok (.object [], ⟨(skipBlanks (offset + 1) rest).offset + 1, more⟩)
      | _ => members fuel levels [] (skipBlanks (offset + 1) rest) :=
  rfl

theorem value_list (fuel levels offset : Nat) (rest : List Char) :
    value (fuel + 1) (levels + 1) ⟨offset, '[' :: rest⟩ =
      match (skipBlanks (offset + 1) rest).rest with
      | ']' :: more => .ok (.list [], ⟨(skipBlanks (offset + 1) rest).offset + 1, more⟩)
      | _ => elements fuel levels (skipBlanks (offset + 1) rest) >>= fun p =>
          pure (.list p.1, p.2) :=
  rfl

/-- What is read of an object behind a member, all of its members so far being given. -/
def membersBehind (fuel levels : Nat) (all : Entries Json) (next : Cursor) :
    Except Refusal (Json × Cursor) :=
  let next := skipBlanks next.offset next.rest
  match next.rest with
  | '\x7d' :: rest => .ok (.object all, ⟨next.offset + 1, rest⟩)
  | ',' :: rest => members fuel levels all (skipBlanks (next.offset + 1) rest)
  | _ => .error (.fault .expectingComma next.offset)

/-- What is read of an object behind the name of a member. -/
def membersFrom (fuel levels : Nat) (before : Entries Json) (name : Text) (next : Cursor) :
    Except Refusal (Json × Cursor) :=
  let next := skipBlanks next.offset next.rest
  match next.rest with
  | ':' :: rest => value fuel levels (skipBlanks (next.offset + 1) rest) >>= fun p =>
      membersBehind fuel levels (before.put name p.1) p.2
  | _ => .error (.fault .expectingColon next.offset)

theorem members_quote (fuel levels offset : Nat) (before : Entries Json) (rest : List Char) :
    members (fuel + 1) levels before ⟨offset, '"' :: rest⟩ =
      text offset rest >>= fun p => membersFrom fuel levels before p.1 p.2 :=
  rfl

theorem members_of_ne {c : Cursor} (h : ∀ rest, c.rest = '"' :: rest → False)
    (fuel levels : Nat) (before : Entries Json) :
    members (fuel + 1) levels before c = .error (.fault .expectingName c.offset) := by
  rw [members]
  split
  · next hc => exact (h _ hc).elim
  · rfl

theorem document_eq (h : ∀ rest, chars = '\uFEFF' :: rest → False) (levels : Nat) :
    document levels chars = value (2 * chars.length + 2) levels (skipBlanks 0 chars) >>= fun p =>
      if (skipBlanks p.2.offset p.2.rest).rest = [] then pure p.1
      else .error (.fault .extraData (skipBlanks p.2.offset p.2.rest).offset) := by
  rw [document]
  · refine bind_congr fun p => ?_
    dsimp only
    cases (skipBlanks p.2.offset p.2.rest).rest <;> rfl
  · exact h

end SchemaScribe.Json.Reader
