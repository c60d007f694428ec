import Mathlib.Data.List.Forall2
import SchemaScribe.Template
import SchemaScribe.Proofs.Success

/-!
# What a template spells

A template spells a row of parts, which are literal texts and names of values: in a literal text
each brace is written twice, and a name stands between braces (`spelling`). Main statement:
`format_spelling`, by which a template is filled in with the literal texts as they are and the texts
of the values, whatever braces these hold.
-/

namespace SchemaScribe.Template

/-- A part of a template as it is meant. -/
inductive Part where
  | literal (t : Text)
  /-- The value of a name. -/
  | value (name : Text)
  deriving DecidableEq, Repr, Inhabited

/-- A literal text as a template spells it: with each brace written twice. -/
def escaped : Text → Text
  | [] => []
  | x :: rest =>
    if x = openingBrace ∨ x = closingBrace then x :: x :: escaped rest else x :: escaped rest

/-- A part as a template spells it. -/
def Part.spelled : Part → Text
  | .literal t => escaped t
  | .value name => openingBrace :: (name ++ [closingBrace])

/-- The template of a row of parts. -/
def spelling (parts : List Part) : Text := parts.flatMap Part.spelled

/-- A name that can stand in a placeholder: it is not empty and no number, and holds no brace. -/
structure IsName (name : Text) : Prop where
  isKey : positionFrom 0 name = .ok none
  no_opening : openingBrace ∉ name
  no_closing : closingBrace ∉ name

instance (name : Text) : Decidable (IsName name) :=
  decidable_of_iff
    (positionFrom 0 name = .ok none ∧ openingBrace ∉ name ∧ closingBrace ∉ name)
    ⟨fun h => ⟨h.1, h.2.1, h.2.2⟩, fun h => ⟨h.isKey, h.no_opening, h.no_closing⟩⟩

/-- The text that a part stands for. -/
inductive Part.Means (values : Entries Json) : Part → Text → Prop
  | literal (t : Text) : Means values (.literal t) t
  | value {name : Text} {x : Json} (hname : IsName name) (hx : values.get? name = some x) :
    Means values (.value name) x.toText

variable {values : Entries Json} {name t rest : Text} {x : CodePoint}

/-- A value that is a text stands for itself. -/
theorem Part.Means.text (hname : IsName name) (ht : values.get? name = some (.text t)) :
    Part.Means values (.value name) t := .value hname ht

/-! ## Taking a template apart -/

theorem pieces_literal (hopening : x ≠ openingBrace) (hclosing : x ≠ closingBrace) :
    pieces .plain (x :: rest) = .literal x :: pieces .plain rest := by
  rw [pieces, if_neg hopening, if_neg hclosing]

/-- A brace that is written twice stands for itself. -/
theorem pieces_brace (hx : x = openingBrace ∨ x = closingBrace) :
    pieces .plain (x :: x :: rest) = .literal x :: pieces .plain rest := by
  have hne : closingBrace ≠ openingBrace := by decide
  rcases hx with rfl | rfl
  · rw [pieces, if_pos rfl, pieces, if_pos rfl]
  · rw [pieces, if_neg hne, if_pos rfl, pieces, if_pos rfl]

theorem pieces_escaped (t rest : Text) :
    pieces .plain (escaped t ++ rest) = t.map Piece.literal ++ pieces .plain rest := by
  induction t with
  | nil => rfl
  | cons x more ih =>
    rw [escaped, List.map_cons, List.cons_append]
    split
    · next hx => rw [List.cons_append, List.cons_append, pieces_brace hx, ih]
    · next hx =>
      obtain ⟨hopening, hclosing⟩ := not_or.1 hx
      rw [List.cons_append, pieces_literal hopening hclosing, ih]

/-- Inside a placeholder, the name goes on to the closing brace. -/
theorem pieces_named (part : Text) (hopening : openingBrace ∉ name)
    (hclosing : closingBrace ∉ name) :
    pieces (.named part) (name ++ closingBrace :: rest) =
      .placeholder (part.reverse ++ name) :: pieces .plain rest := by
  induction name generalizing part with
  | nil => rw [List.nil_append, pieces, if_pos rfl, List.append_nil]
  | cons x more ih =>
    obtain ⟨hxopening, hopening⟩ := not_or.1 (mt List.mem_cons.2 hopening)
    obtain ⟨hxclosing, hclosing⟩ := not_or.1 (mt List.mem_cons.2 hclosing)
    rw [List.cons_append, pieces, if_neg (Ne.symm hxclosing), if_neg (Ne.symm hxopening),
      ih _ hopening hclosing, List.reverse_cons, List.append_assoc, List.singleton_append]

/-- A name between braces is a placeholder, whatever the name is. -/
theorem pieces_placeholder (hopening : openingBrace ∉ name) (hclosing : closingBrace ∉ name)
    (rest : Text) :
    pieces .plain ((Part.value name).spelled ++ rest) =
      .placeholder name :: pieces .plain rest := by
  have hspelled : (Part.value name).spelled ++ rest =
      openingBrace :: (name ++ closingBrace :: rest) := by
    simp [Part.spelled]
  rw [hspelled, pieces, if_pos rfl]
  cases name with
  | nil => rw [List.nil_append, pieces, if_neg (by decide), if_pos rfl]
  | cons x more =>
    obtain ⟨hxopening, hopening⟩ := not_or.1 (mt List.mem_cons.2 hopening)
    obtain ⟨hxclosing, hclosing⟩ := not_or.1 (mt List.mem_cons.2 hclosing)
    rw [List.cons_append, pieces, if_neg (Ne.symm hxopening), if_neg (Ne.symm hxclosing),
      pieces_named [x] hopening hclosing]
    rfl

/-! ## Filling it in -/

theorem fillAll_literal (values : Entries Json) (t : Text) (more : List Piece) :
    fillAll values (t.map Piece.literal ++ more) = (t ++ ·) <$> fillAll values more := by
  induction t with
  | nil => exact (id_map _).symm
  | cons x rest ih =>
    rw [List.map_cons, List.cons_append, fillAll, ih]
    cases fillAll values more with
    | error e => rfl
    | ok tail => rfl

/-- The text that a part is filled in with, if there is one. -/
def Part.fill (values : Entries Json) : Part → Except Fault Text
  | .literal t => .ok t
  | .value name => valueOf values name

/-- A part whose name, if it is one, holds no brace. -/
def Part.IsBraceFree : Part → Prop
  | .literal _ => True
  | .value name => openingBrace ∉ name ∧ closingBrace ∉ name

/-- **One part** is filled in by itself, whatever comes behind it. -/
theorem fillAll_pieces_spelled {part : Part} (h : part.IsBraceFree) (rest : Text) :
    fillAll values (pieces .plain (part.spelled ++ rest)) = (do
      let t ← part.fill values
      let tail ← fillAll values (pieces .plain rest)
      return t ++ tail) := by
  cases part with
  | literal t =>
    rw [Part.spelled, pieces_escaped, fillAll_literal]
    cases fillAll values (pieces .plain rest) <;> rfl
  | value name =>
    rw [pieces_placeholder h.1 h.2]
    rfl

theorem Part.Means.isBraceFree {part : Part} (h : part.Means values t) : part.IsBraceFree := by
  cases h with
  | literal => exact trivial
  | value hname _ => exact ⟨hname.no_opening, hname.no_closing⟩

/-- A part is filled in with the text that it stands for. -/
theorem Part.Means.fill_eq {part : Part} (h : part.Means values t) :
    part.fill values = .ok t := by
  cases h with
  | literal => rfl
  | value hname hx =>
    rw [Part.fill, valueOf, hname.isKey]
    simp only [bind, Except.bind, hx]
    rfl

/-- **What a template spells** is what it is filled in with, part by part. -/
theorem format_spelling {parts : List Part} {texts : List Text}
    (h : List.Forall₂ (Part.Means values) parts texts) :
    format values (spelling parts) = .ok texts.flatten := by
  unfold format spelling
  induction h with
  | nil => rfl
  | cons hpart _ ih =>
    rw [List.flatMap_cons, fillAll_pieces_spelled hpart.isBraceFree, hpart.fill_eq, ih]
    rfl

end SchemaScribe.Template
