import SchemaScribe.Proofs.Template.Spelling

/-!
# Names and positions

A placeholder whose name is empty or a number stands for a value by its position, and there are no
such values. Any other name is a key and stands for the value under it. Main statement:
`format_spelling_eq_ok_iff`, by which the spelling of a row of parts is filled in exactly when all
names in it are keys with values.
-/

namespace SchemaScribe.Template

variable {values : Entries Json} {name rest : Text} {x : CodePoint} {n : Nat}

/-! ## Keys -/

/-- The decimal digit that a code point is, if it is one. -/
def digit? (x : CodePoint) : Option Nat := x.char?.bind Text.decimalDigit?

/-- The number that the digits stand for, those in front of them standing for `n`. -/
def number (n : Nat) (digits : List Nat) : Nat := digits.foldl (fun n digit => 10 * n + digit) n

/-- A name that is read as a key: a code point of it is no digit, and the digits in front of that
stand for no number that is too great for a position. -/
def IsKey (name : Text) : Prop :=
  ∃ front digits x rest, name = front ++ x :: rest ∧ front.map digit? = digits.map some ∧
    number 0 digits ≤ maxPosition ∧ digit? x = none

theorem le_number (n : Nat) (digits : List Nat) : n ≤ number n digits := by
  induction digits generalizing n with
  | nil => exact Nat.le_refl n
  | cons digit rest ih => exact Nat.le_trans (by omega) (ih (10 * n + digit))

theorem positionFrom_cons_of_digit {digit : Nat} (h : digit? x = some digit) :
    positionFrom n (x :: rest) =
      if maxPosition < 10 * n + digit then .error .tooManyDigits
      else positionFrom (10 * n + digit) rest := by
  rw [digit?] at h
  rw [positionFrom, h]

theorem positionFrom_cons_of_no_digit (h : digit? x = none) :
    positionFrom n (x :: rest) = .ok none := by
  rw [digit?] at h
  rw [positionFrom, h]

theorem positionFrom_eq_none_iff (hn : n ≤ maxPosition) : positionFrom n name = .ok none ↔
    ∃ front digits x rest, name = front ++ x :: rest ∧ front.map digit? = digits.map some ∧
      number n digits ≤ maxPosition ∧ digit? x = none := by
  constructor
  · intro h
    -- Each digit goes to the front of the name; the first code point that is none ends it.
    induction name generalizing n with
    | nil => cases h
    | cons x rest ih =>
      cases hx : digit? x with
      | none => exact ⟨[], [], x, rest, rfl, rfl, hn, hx⟩
      | some digit =>
        rw [positionFrom_cons_of_digit hx] at h
        split at h
        · cases h
        · next hsmall =>
          obtain ⟨front, digits, y, more, rfl, hfront, hnumber, hy⟩ := ih (Nat.not_lt.1 hsmall) h
          exact ⟨x :: front, digit :: digits, y, more, rfl, by simp [hx, hfront], hnumber, hy⟩
  · rintro ⟨front, digits, x, rest, rfl, hfront, hnumber, hx⟩
    induction front generalizing n digits with
    | nil => exact positionFrom_cons_of_no_digit hx
    | cons y front ih =>
      obtain ⟨digit, digits, rfl⟩ : ∃ digit more, digits = digit :: more :=
        List.exists_cons_of_ne_nil (by rintro rfl; cases hfront)
      obtain ⟨hy, hfront⟩ := List.cons.inj hfront
      have hsmall : 10 * n + digit ≤ maxPosition := Nat.le_trans (le_number _ digits) hnumber
      rw [List.cons_append, positionFrom_cons_of_digit hy, if_neg (Nat.not_lt.2 hsmall)]
      exact ih hsmall digits hfront hnumber

theorem isKey_iff : IsKey name ↔ positionFrom 0 name = .ok none :=
  (positionFrom_eq_none_iff (Nat.zero_le _)).symm

instance (name : Text) : Decidable (IsKey name) := decidable_of_iff _ isKey_iff.symm

/-- A placeholder stands for the value under its name, if that is a key. -/
theorem valueOf_eq_ok_iff {t : Text} :
    valueOf values name = .ok t ↔ IsKey name ∧ ∃ y, values.get? name = some y ∧ t = y.toText := by
  rw [isKey_iff, valueOf, bind_eq_ok_iff]
  constructor
  · rintro ⟨position, hposition, h⟩
    cases position with
    | some index => cases h
    | none =>
      dsimp only at h
      split at h
      · next y hy => exact ⟨hposition, y, hy, (pure_eq_ok_iff.1 h).symm⟩
      · cases h
  · rintro ⟨hposition, y, hy, rfl⟩
    refine ⟨none, hposition, ?_⟩
    simp only [hy]
    rfl

/-! ## Rows of parts -/

/-- The text of a part: that of the value, where a name has one. -/
def Part.text (values : Entries Json) : Part → Text
  | .literal t => t
  | .value name => ((values.get? name).map Json.toText).getD []

/-- A part stands for its text when its name, if it is one, is a key with a value. -/
theorem Part.fill_eq_ok_iff {part : Part} {t : Text} : part.fill values = .ok t ↔
    (∀ name, part = .value name → IsKey name ∧ (values.get? name).isSome) ∧
      t = part.text values := by
  cases part with
  | literal s =>
    simp only [fill, text, Except.ok.injEq, reduceCtorEq, false_implies, implies_true, true_and]
    exact eq_comm
  | value name =>
    simp only [fill, text, valueOf_eq_ok_iff, Part.value.injEq, forall_eq']
    cases values.get? name with
    | none => simp
    | some y => simp

/-- The texts that the parts of a row stand for, put together. -/
def fillParts (values : Entries Json) : List Part → Except Fault Text
  | [] => .ok []
  | part :: rest => do
    let t ← part.fill values
    let tail ← fillParts values rest
    return t ++ tail

theorem fillParts_eq_ok_iff {parts : List Part} {t : Text} : fillParts values parts = .ok t ↔
    (∀ name, .value name ∈ parts → IsKey name ∧ (values.get? name).isSome) ∧
      t = parts.flatMap (Part.text values) := by
  induction parts generalizing t with
  | nil =>
    simp only [fillParts, Except.ok.injEq, List.not_mem_nil, false_implies, implies_true, true_and]
    exact eq_comm
  | cons part rest ih =>
    rw [fillParts, bind_eq_ok_iff]
    constructor
    · rintro ⟨s, hs, h⟩
      obtain ⟨tail, htail, h⟩ := bind_eq_ok_iff.1 h
      obtain rfl := pure_eq_ok_iff.1 h
      obtain ⟨hpart, rfl⟩ := Part.fill_eq_ok_iff.1 hs
      obtain ⟨hrest, rfl⟩ := ih.1 htail
      refine ⟨fun name hname => ?_, rfl⟩
      rcases List.mem_cons.1 hname with hname | hname
      · exact hpart name hname.symm
      · exact hrest name hname
    · rintro ⟨hnames, rfl⟩
      have hpart : part.fill values = .ok (part.text values) :=
        Part.fill_eq_ok_iff.2 ⟨fun name hname => hnames name (hname ▸ List.mem_cons_self), rfl⟩
      have hrest : fillParts values rest = .ok (rest.flatMap (Part.text values)) :=
        ih.2 ⟨fun name hname => hnames name (List.mem_cons_of_mem _ hname), rfl⟩
      exact ⟨_, hpart, bind_eq_ok_iff.2 ⟨_, hrest, rfl⟩⟩

/-- The spelling of a row is filled in part by part, whatever its names are but for braces. -/
theorem format_spelling_eq {parts : List Part} (h : ∀ part ∈ parts, part.IsBraceFree) :
    format values (spelling parts) = fillParts values parts := by
  unfold format spelling
  induction parts with
  | nil => rfl
  | cons part rest ih =>
    obtain ⟨hpart, hrest⟩ := List.forall_mem_cons.1 h
    rw [List.flatMap_cons, fillAll_pieces_spelled hpart, ih hrest]
    rfl

/-- **The spelling of a row of parts** is filled in exactly when all names in it are keys with
values, with the texts of the parts in a row. -/
theorem format_spelling_eq_ok_iff {parts : List Part} {t : Text}
    (h : ∀ part ∈ parts, part.IsBraceFree) :
    format values (spelling parts) = .ok t ↔
      (∀ name, .value name ∈ parts → IsKey name ∧ (values.get? name).isSome) ∧
        t = parts.flatMap (Part.text values) := by
  rw [format_spelling_eq h, fillParts_eq_ok_iff]

end SchemaScribe.Template
