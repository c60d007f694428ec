import Mathlib.Data.List.Chain
import SchemaScribe.Json.Reader

/-!
# Literals of strings

How the language of the models reads a literal of a string between single quotes. A string of the
language is a row of UTF-16 code units, `units`; a text is given back by its code units unless it
holds the halves of a surrogate pair one behind the other (`joinPairs_units`).

`Literal.read` goes through a literal one code point at a time, and `Literal.step` says what each
leads to. A code point that is not part of an escape stands for itself, and an escape always stands
for less than it is written with (`length_of_step`). So a text that is put between quotes as
it is denotes itself exactly when it holds nothing that ends a literal or starts an escape
(`value?_inQuotes_eq_some_iff`).
-/

namespace SchemaScribe.TypeScript

open Json.Reader (joinPairs isHighSurrogate isLowSurrogate ofPair)

/-! ## Code units -/

/-- The code units of a number of a code point: the number, or the two halves of a pair. -/
def unitsOf (code : Nat) : List Nat :=
  if code < 0x10000 then [code]
  else [0xD800 + (code - 0x10000) / 0x400, 0xDC00 + (code - 0x10000) % 0x400]

/-- The string that a text is: its code units. -/
def units (t : Text) : List Nat := t.flatMap fun x => unitsOf x.code

/-- No half of a surrogate pair stands right in front of one that completes it. -/
def IsJoined (t : Text) : Prop :=
  t.IsChain fun x y => ¬ (isHighSurrogate x.code ∧ isLowSurrogate y.code)

/-- What can stand between single quotes and is no escape: no quote, no backslash and no end of a
line. -/
def IsPlain (t : Text) : Prop :=
  .scalar '\'' ∉ t ∧ .scalar '\\' ∉ t ∧ .scalar '\n' ∉ t ∧ .scalar '\r' ∉ t

instance (t : Text) : Decidable (IsPlain t) := inferInstanceAs (Decidable (_ ∧ _))

/-- The string has none of the code units that a plain text does not have. -/
def IsPlainString (us : List Nat) : Prop := 39 ∉ us ∧ 92 ∉ us ∧ 10 ∉ us ∧ 13 ∉ us

theorem length_unitsOf_pos (code : Nat) : 0 < (unitsOf code).length := by
  unfold unitsOf
  split <;> simp

theorem length_unitsOf_le (code : Nat) : (unitsOf code).length ≤ 2 := by
  unfold unitsOf
  split <;> simp

theorem units_cons (x : CodePoint) (t : Text) : units (x :: t) = unitsOf x.code ++ units t :=
  List.flatMap_cons

theorem units_append (s t : Text) : units (s ++ t) = units s ++ units t := List.flatMap_append

theorem isPlain_cons_iff {x : CodePoint} {t : Text} : IsPlain (x :: t) ↔
    (x ≠ .scalar '\'' ∧ x ≠ .scalar '\\' ∧ x ≠ .scalar '\n' ∧ x ≠ .scalar '\r') ∧ IsPlain t := by
  simp only [IsPlain, List.mem_cons, not_or, ne_eq, eq_comm (b := x)]
  tauto

namespace Literal

/-- Where in a literal a reader is. -/
inductive State where
  /-- Between two code points of the string. -/
  | between
  /-- Behind a backslash. -/
  | escape
  /-- In an escape of a fixed number of digits, with so many more behind the next one; so far they
  make the number `n`. -/
  | digits (more n : Nat)
  /-- Behind `\u`. -/
  | unicode
  /-- In an escape of digits between braces; so far they make the number `n`, if there are any. -/
  | braces (n : Option Nat)
  deriving DecidableEq, Repr

/-- The number of a digit, if the code point is one. -/
def hex? (x : CodePoint) : Option Nat := x.char?.bind Text.hexValue?

/-- Whether a code point is a decimal digit. -/
def isDigit (x : CodePoint) : Bool := x.satisfies fun c => '0' ≤ c ∧ c ≤ '9'

/-- Whether a code point ends a line, which a backslash takes back. -/
def isLineEnd (x : CodePoint) : Bool :=
  x.satisfies fun c => c = '\n' ∨ c = '\r' ∨ c = '\u2028' ∨ c = '\u2029'

/-- The control character that a letter stands for behind a backslash. -/
def control? : CodePoint → Option Nat
  | .scalar 'b' => some 8
  | .scalar 't' => some 9
  | .scalar 'n' => some 10
  | .scalar 'v' => some 11
  | .scalar 'f' => some 12
  | .scalar 'r' => some 13
  | _ => none

/-- What a code point behind a backslash leads to, with another one `ahead`: the next code units of
the string, and where the reader is then. A line feed belongs to the carriage return in front of it,
and a zero stands alone; any other digit is refused. -/
def escape (x : CodePoint) (ahead : Option CodePoint) : Option (List Nat × State) :=
  if x = .scalar 'x' then some ([], .digits 1 0)
  else if x = .scalar 'u' then some ([], .unicode)
  else if isLineEnd x then
    some ([], if x = .scalar '\r' ∧ ahead = some (.scalar '\n') then .escape else .between)
  else if isDigit x then
    if x = .scalar '0' ∧ ahead.all (!isDigit ·) then some ([0], .between) else none
  else some ((control? x).elim (unitsOf x.code) fun n => [n], .between)

/-- What a code point leads to that does not end the literal. -/
def step (state : State) (x : CodePoint) (ahead : Option CodePoint) : Option (List Nat × State) :=
  match state with
  | .between =>
    if x = .scalar '\\' then some ([], .escape)
    else if x = .scalar '\n' ∨ x = .scalar '\r' then none
    else some (unitsOf x.code, .between)
  | .escape => escape x ahead
  | .digits more n => do
    let n := 16 * n + (← hex? x)
    return if more = 0 then ([n], .between) else ([], .digits (more - 1) n)
  | .unicode =>
    if x = .scalar '\x7b' then some ([], .braces none)
    else do return ([], .digits 2 (← hex? x))
  | .braces n =>
    if x = .scalar '\x7d' then do return (unitsOf (← n), .between)
    else do
      let n := 16 * n.getD 0 + (← hex? x)
      if n ≤ 0x10FFFF then some ([], .braces (some n)) else none

/-- Reads a literal up to its closing quote: the string, and what stands behind it. -/
def read (state : State) : Text → Option (List Nat × Text)
  | [] => none
  | x :: rest =>
    if state = .between ∧ x = .scalar '\'' then some ([], rest)
    else do
      let (found, next) ← step state x rest.head?
      let (more, behind) ← read next rest
      return (found ++ more, behind)

/-- The string that a text denotes, if it is a literal. -/
def value? : Text → Option (List Nat)
  | [] => none
  | x :: rest =>
    if x = .scalar '\'' then
      match read .between rest with
      | some (us, []) => some us
      | _ => none
    else none

example : value? "'it\\'s \\u{48}\\x69'" = some (units "it's Hi") := by decide +kernel

/-! ## What is read -/

variable {state next : State} {x : CodePoint} {ahead : Option CodePoint} {us found : List Nat}
  {t rest body m : Text}

/-- By how many code units an escape may still get longer than what is written of it behind this
state. -/
def slack : State → Nat
  | .braces (some _) => 1
  | _ => 0

theorem length_of_escape (h : escape x ahead = some (found, next)) :
    found.length + slack next ≤ (unitsOf x.code).length := by
  have hpos := length_unitsOf_pos x.code
  rw [escape] at h
  split at h
  · cases h
    exact Nat.zero_le _
  split at h
  · cases h
    exact Nat.zero_le _
  split at h
  · cases h
    split <;> exact Nat.zero_le _
  split at h
  · split at h
    · cases h
      exact hpos
    · cases h
  · cases h
    cases control? x with
    | none => exact le_rfl
    | some n => exact hpos

/-- Outside of escapes a code point starts an escape or is kept, and no line ends. -/
theorem step_between (h : step .between x ahead = some (found, next)) :
    (found = [] ∧ next = .escape) ∨
      (found = unitsOf x.code ∧ next = .between ∧
        x ≠ .scalar '\\' ∧ x ≠ .scalar '\n' ∧ x ≠ .scalar '\r') := by
  rw [step] at h
  split at h
  · cases h
    exact .inl ⟨rfl, rfl⟩
  next hbackslash =>
  split at h
  · cases h
  next hend =>
  cases h
  exact .inr ⟨rfl, rfl, hbackslash, not_or.1 hend⟩

/-- **One step** stands for no more than it is written with. -/
theorem length_of_step (h : step state x ahead = some (found, next)) :
    found.length + slack next ≤ (unitsOf x.code).length + slack state := by
  have hpos := length_unitsOf_pos x.code
  cases state with
  | between =>
    rcases step_between h with ⟨rfl, rfl⟩ | ⟨rfl, rfl, -⟩
    · exact Nat.zero_le _
    · exact le_rfl
  | escape => exact length_of_escape h
  | digits more n =>
    obtain ⟨d, -, h⟩ := Option.bind_eq_some_iff.1 h
    dsimp only [Option.pure_def] at h
    split at h
    · cases h
      exact hpos
    · cases h
      exact Nat.zero_le _
  | unicode =>
    rw [step] at h
    split at h
    · cases h
      exact Nat.zero_le _
    · obtain ⟨d, -, h⟩ := Option.bind_eq_some_iff.1 h
      cases h
      exact Nat.zero_le _
  | braces n =>
    rw [step] at h
    split at h
    · obtain ⟨n, rfl, h⟩ := Option.bind_eq_some_iff.1 h
      have hle := length_unitsOf_le n
      cases h
      simp only [slack]
      omega
    · obtain ⟨d, -, h⟩ := Option.bind_eq_some_iff.1 h
      dsimp only at h
      split at h
      · cases h
        exact hpos.trans_le (Nat.le_add_right _ _)
      · cases h

/-- **A run** up to a quote stands for no more than what is in front of the quote, and for as much
only if that is plain. -/
theorem exists_body_of_read (h : read state t = some (us, rest)) :
    ∃ body, t = body ++ .scalar '\'' :: rest ∧ us.length ≤ (units body).length + slack state ∧
      (state = .between → us.length = (units body).length → us = units body ∧ IsPlain body) := by
  induction t generalizing state us with
  | nil => cases h
  | cons x more ih =>
    rw [read] at h
    split at h
    · next hclose =>
      obtain ⟨rfl, rfl⟩ := hclose
      cases h
      exact ⟨[], rfl, le_rfl, fun _ _ => ⟨rfl, by decide⟩⟩
    next hgo =>
    obtain ⟨⟨found, next⟩, hstep, h⟩ := Option.bind_eq_some_iff.1 h
    obtain ⟨⟨tail, behind⟩, hread, h⟩ := Option.bind_eq_some_iff.1 h
    cases h
    obtain ⟨body, rfl, hle, hplain⟩ := ih hread
    have hlength := length_of_step hstep
    refine ⟨x :: body, rfl, ?_, ?_⟩
    · rw [units_cons, List.length_append, List.length_append]
      omega
    · rintro rfl heq
      rw [units_cons, List.length_append, List.length_append] at heq
      rcases step_between hstep with ⟨rfl, rfl⟩ | ⟨rfl, rfl, hordinary⟩
      · have hpos := length_unitsOf_pos x.code
        simp only [slack, List.length_nil] at hle heq
        omega
      · obtain ⟨rfl, hbody⟩ := hplain rfl (by omega)
        exact ⟨(units_cons x body).symm,
          isPlain_cons_iff.2 ⟨⟨fun hx => hgo ⟨rfl, hx⟩, hordinary⟩, hbody⟩⟩

/-- What is plain is read as it is. -/
theorem read_append_of_isPlain (h : IsPlain body) (rest : Text) :
    read .between (body ++ .scalar '\'' :: rest) = some (units body, rest) := by
  induction body with
  | nil => rfl
  | cons x more ih =>
    obtain ⟨⟨hquote, hbackslash, hend⟩, hmore⟩ := isPlain_cons_iff.1 h
    rw [List.cons_append, read, if_neg (fun hx => hquote hx.2), step, if_neg hbackslash,
      if_neg (not_or.2 hend)]
    simp only [Option.bind_eq_bind, Option.bind_some, ih hmore]
    rw [units_cons]
    rfl

/-- A text between single quotes, put there as it is. -/
def inQuotes (t : Text) : Text := "'" ++ t ++ "'"

/-- **Which texts denote themselves** between single quotes: those that are plain. -/
theorem value?_inQuotes_eq_some_iff : value? (inQuotes t) = some (units t) ↔ IsPlain t := by
  have hshape : inQuotes t = .scalar '\'' :: (t ++ [.scalar '\'']) := rfl
  rw [hshape, value?, if_pos rfl]
  constructor
  · intro h
    split at h
    · next us hread =>
      cases h
      obtain ⟨body, hbody, -, hplain⟩ := exists_body_of_read hread
      obtain rfl := List.append_cancel_right hbody
      exact (hplain rfl rfl).2
    · cases h
  · intro h
    rw [read_append_of_isPlain h]

end Literal

/-! ## Texts and their code units -/

variable {t : Text}

theorem mem_units_iff {c : Char} (hc : c.toNat < 0xD800) : c.toNat ∈ units t ↔ .scalar c ∈ t := by
  have hunits : ∀ x : CodePoint, c.toNat ∈ unitsOf x.code ↔ x = .scalar c := by
    intro x
    have hcode : c.toNat ∈ unitsOf x.code ↔ x.code = c.toNat := by
      unfold unitsOf
      split
      · rw [List.mem_singleton, eq_comm]
      · simp only [List.mem_cons, List.not_mem_nil, or_false]
        omega
    rw [hcode]
    cases x with
    | scalar d => rw [CodePoint.scalar.injEq, ← Char.toNat_inj]; rfl
    | surrogate index =>
      refine iff_of_false (fun h => ?_) (by simp)
      have hlow : 0xD800 ≤ (CodePoint.surrogate index).code := Nat.le_add_right _ _
      omega
  simp only [units, List.mem_flatMap, hunits, exists_eq_right]

/-- Whether a text is plain can be seen by its code units. -/
theorem isPlainString_units_iff : IsPlainString (units t) ↔ IsPlain t := by
  have hmem : ∀ c : Char, c.toNat < 0xD800 → (c.toNat ∈ units t ↔ .scalar c ∈ t) :=
    fun c hc => mem_units_iff hc
  rw [IsPlain, ← hmem '\'' (by decide), ← hmem '\\' (by decide), ← hmem '\n' (by decide),
    ← hmem '\r' (by decide)]
  exact Iff.rfl

theorem code_lt (x : CodePoint) : x.code < 0x110000 := by
  cases x with
  | scalar c =>
    have hvalid : c.toNat < 0xD800 ∨ 0xDFFF < c.toNat ∧ c.toNat < 0x110000 := c.valid
    rw [CodePoint.code]
    omega
  | surrogate index =>
    have hindex := index.isLt
    rw [CodePoint.code]
    omega

theorem ofCode_code (x : CodePoint) : CodePoint.ofCode x.code = x := by
  cases x with
  | surrogate index =>
    have hlt := index.isLt
    rw [CodePoint.code, CodePoint.ofCode, dif_pos (by omega)]
    simp
  | scalar c =>
    have hvalid : c.toNat < 0xD800 ∨ 0xDFFF < c.toNat ∧ c.toNat < 0x110000 := c.valid
    rw [CodePoint.code, CodePoint.ofCode, dif_neg (by omega), Char.ofNat_toNat]

/-- A code that is no half of a pair with the next one stands for itself. -/
theorem joinPairs_cons {code : Nat} {us : List Nat}
    (h : ∀ n, us.head? = some n → ¬ (isHighSurrogate code ∧ isLowSurrogate n)) :
    joinPairs (code :: us) = .ofCode code :: joinPairs us := by
  cases us with
  | nil => rfl
  | cons n more =>
    rw [joinPairs, if_neg]
    simpa using h n rfl

/-- The two code units of a character are put together to the character. -/
theorem joinPairs_pair {c : Char} (hc : 0x10000 ≤ c.toNat) (us : List Nat) :
    joinPairs (unitsOf c.toNat ++ us) = .scalar c :: joinPairs us := by
  have hlt : c.toNat < 0x110000 := code_lt (.scalar c)
  have hpair : ofPair (0xD800 + (c.toNat - 0x10000) / 0x400)
      (0xDC00 + (c.toNat - 0x10000) % 0x400) = c := by
    have hcode : 0x10000 + (0xD800 + (c.toNat - 0x10000) / 0x400 - 0xD800) * 0x400 +
        (0xDC00 + (c.toNat - 0x10000) % 0x400 - 0xDC00) = c.toNat := by omega
    rw [ofPair, hcode, Char.ofNat_toNat]
  rw [unitsOf, if_neg (by omega), List.cons_append, List.cons_append, List.nil_append, joinPairs,
    if_pos, hpair]
  simp only [isHighSurrogate, isLowSurrogate, Bool.and_eq_true, decide_eq_true_eq]
  omega

/-- A text whose string starts with the second half of a pair starts with that half. -/
theorem head?_of_head?_units {n : Nat} (h : (units t).head? = some n) (hn : isLowSurrogate n) :
    ∃ y, t.head? = some y ∧ y.code = n := by
  cases t with
  | nil => cases h
  | cons y more =>
    refine ⟨y, rfl, ?_⟩
    have hlt := code_lt y
    rw [units_cons, unitsOf] at h
    split at h
    · exact Option.some.inj h
    · obtain rfl := Option.some.inj h
      simp only [isLowSurrogate, Bool.and_eq_true, decide_eq_true_eq] at hn
      omega

/-- **A text is given back by its string**, unless halves of pairs in it would be put together. -/
theorem joinPairs_units (h : IsJoined t) : joinPairs (units t) = t := by
  induction t with
  | nil => rfl
  | cons x rest ih =>
    rw [units_cons]
    by_cases hcode : x.code < 0x10000
    · have hapart : ∀ n, (units rest).head? = some n →
          ¬ (isHighSurrogate x.code ∧ isLowSurrogate n) := by
        rintro n hn ⟨hhigh, hlow⟩
        obtain ⟨y, hy, rfl⟩ := head?_of_head?_units hn hlow
        exact (List.isChain_cons.1 h).1 y hy ⟨hhigh, hlow⟩
      rw [unitsOf, if_pos hcode, List.singleton_append, joinPairs_cons hapart, ofCode_code,
        ih (List.isChain_cons.1 h).2]
    · cases x with
      | surrogate index =>
        have hindex := index.isLt
        rw [CodePoint.code] at hcode
        omega
      | scalar c =>
        rw [CodePoint.code, joinPairs_pair (Nat.not_lt.1 hcode), ih (List.isChain_cons.1 h).2]

end SchemaScribe.TypeScript
