import SchemaScribe.Proofs.Template.Names

/-!
# Templates inside values

A value is filled in text by text (`formatValue_structural`): its lists keep their lengths, its
objects their names in order, and what is no text stays as it is. If a text cannot be filled in, the
first such text decides the fault, the texts being taken in the order in which they are written.
This holds whatever it is that fills in a text, be it `Template.format` or something that knows more
kinds of placeholders.

The recursion has one case for values, one for elements and one for members, and so has every
statement about it.
-/

namespace SchemaScribe.Template

variable {ε : Type}

/-! ## Values that are filled in -/

mutual

/-- A value in which every text is filled in by itself, and nothing else is changed. -/
inductive Filled (fill : Text → Except ε Text) : Json → Json → Prop
  | null : Filled fill .null .null
  | bool (b : Bool) : Filled fill (.bool b) (.bool b)
  | int (n : Int) : Filled fill (.int n) (.int n)
  | float (x : Binary64) : Filled fill (.float x) (.float x)
  | text {s t : Text} (h : fill s = .ok t) : Filled fill (.text s) (.text t)
  | list {xs ys : List Json} (h : FilledElements fill xs ys) :
      Filled fill (.list xs) (.list ys)
  | object {ms ns : List (Text × Json)} (h : FilledMembers fill ms ns) :
      Filled fill (.object ms) (.object ns)

/-- Elements that are filled in, each in its place. -/
inductive FilledElements (fill : Text → Except ε Text) : List Json → List Json → Prop
  | nil : FilledElements fill [] []
  | cons {x y : Json} {xs ys : List Json} (h : Filled fill x y)
      (hrest : FilledElements fill xs ys) : FilledElements fill (x :: xs) (y :: ys)

/-- Members that are filled in, each under its name and in its place. -/
inductive FilledMembers (fill : Text → Except ε Text) :
    List (Text × Json) → List (Text × Json) → Prop
  | nil : FilledMembers fill [] []
  | cons {name : Text} {x y : Json} {ms ns : List (Text × Json)} (h : Filled fill x y)
      (hrest : FilledMembers fill ms ns) :
      FilledMembers fill ((name, x) :: ms) ((name, y) :: ns)

end

mutual

/-- The texts in a value, in the order in which they are written. -/
def texts : Json → List Text
  | .text t => [t]
  | .list elements => elementTexts elements
  | .object members => memberTexts members
  | .null | .bool _ | .int _ | .float _ => []

/-- The texts in the elements of a list, first to last. -/
def elementTexts : List Json → List Text
  | [] => []
  | x :: rest => texts x ++ elementTexts rest

/-- The texts in the members of an object, first to last; the names are none of them. -/
def memberTexts : List (Text × Json) → List Text
  | [] => []
  | (_, x) :: rest => texts x ++ memberTexts rest

end

/-- A text that can be filled in. -/
def Fillable (fill : Text → Except ε Text) (s : Text) : Prop := ∃ t, fill s = .ok t

/-- The fault of the first text in a row that cannot be filled in. -/
def FirstFault (fill : Text → Except ε Text) (row : List Text) (e : ε) : Prop :=
  ∃ before s after, row = before ++ s :: after ∧ (∀ t ∈ before, Fillable fill t) ∧
    fill s = .error e

variable {fill : Text → Except ε Text} {e : ε}

/-! ## Success -/

mutual

theorem fillTexts_eq_ok_iff :
    (x : Json) → ∀ {y}, fillTexts fill x = .ok y ↔ Filled fill x y
  | .null => ⟨fun h => Except.ok.inj h ▸ .null, fun h => by cases h; rfl⟩
  | .bool b => ⟨fun h => Except.ok.inj h ▸ .bool b, fun h => by cases h; rfl⟩
  | .int n => ⟨fun h => Except.ok.inj h ▸ .int n, fun h => by cases h; rfl⟩
  | .float x => ⟨fun h => Except.ok.inj h ▸ .float x, fun h => by cases h; rfl⟩
  | .text s => by
    rw [fillTexts, map_eq_ok_iff]
    constructor
    · rintro ⟨t, ht, rfl⟩
      exact .text ht
    · rintro ⟨⟩
      next t ht => exact ⟨t, ht, rfl⟩
  | .list xs => by
    rw [fillTexts, map_eq_ok_iff]
    constructor
    · rintro ⟨ys, hys, rfl⟩
      exact .list ((fillElements_eq_ok_iff xs).1 hys)
    · rintro ⟨⟩
      next ys hys => exact ⟨ys, (fillElements_eq_ok_iff xs).2 hys, rfl⟩
  | .object ms => by
    rw [fillTexts, map_eq_ok_iff]
    constructor
    · rintro ⟨ns, hns, rfl⟩
      exact .object ((fillMembers_eq_ok_iff ms).1 hns)
    · rintro ⟨⟩
      next ns hns => exact ⟨ns, (fillMembers_eq_ok_iff ms).2 hns, rfl⟩

theorem fillElements_eq_ok_iff :
    (xs : List Json) → ∀ {ys}, fillElements fill xs = .ok ys ↔ FilledElements fill xs ys
  | [] => ⟨fun h => Except.ok.inj h ▸ .nil, fun h => by cases h; rfl⟩
  | x :: xs => by
    rw [fillElements, bind_eq_ok_iff]
    simp only [bind_eq_ok_iff, pure_eq_ok_iff, fillTexts_eq_ok_iff x,
      fillElements_eq_ok_iff xs]
    constructor
    · rintro ⟨y, hy, ys, hys, rfl⟩
      exact .cons hy hys
    · rintro ⟨⟩
      next y ys hy hys => exact ⟨y, hy, ys, hys, rfl⟩

theorem fillMembers_eq_ok_iff :
    (ms : List (Text × Json)) →
      ∀ {ns}, fillMembers fill ms = .ok ns ↔ FilledMembers fill ms ns
  | [] => ⟨fun h => Except.ok.inj h ▸ .nil, fun h => by cases h; rfl⟩
  | (name, x) :: ms => by
    rw [fillMembers, bind_eq_ok_iff]
    simp only [bind_eq_ok_iff, pure_eq_ok_iff, fillTexts_eq_ok_iff x, fillMembers_eq_ok_iff ms]
    constructor
    · rintro ⟨y, hy, ns, hns, rfl⟩
      exact .cons hy hns
    · rintro ⟨⟩
      next y ns hy hns => exact ⟨y, hy, ns, hns, rfl⟩

end

/-! ## Faults -/

theorem firstFault_singleton {s : Text} :
    FirstFault fill [s] e ↔ fill s = .error e := by
  constructor
  · rintro ⟨before, t, after, hrow, -, he⟩
    have ht : s = t := by
      cases before with
      | nil => exact (List.cons.inj hrow).1
      | cons u more => simp at hrow
    rw [ht, he]
  · intro he
    exact ⟨[], s, [], rfl, by simp, he⟩

/-- The first fault of two rows is that of the first row, or that of the second if there is no
fault in the first. -/
theorem firstFault_append {row more : List Text} : FirstFault fill (row ++ more) e ↔
    FirstFault fill row e ∨ (∀ t ∈ row, Fillable fill t) ∧ FirstFault fill more e := by
  constructor
  · rintro ⟨before, s, after, hrow, hbefore, he⟩
    -- The rows meet before the faulty text, right at it, or behind it.
    rcases List.append_eq_append_iff.1 hrow with ⟨rest, rfl, rfl⟩ | ⟨rest, rfl, hrest⟩
    · have hall := List.forall_mem_append.1 hbefore
      exact .inr ⟨hall.1, rest, s, after, rfl, hall.2, he⟩
    · cases rest with
      | nil =>
        rw [List.append_nil]
        exact .inr ⟨hbefore, [], s, after, hrest.symm, by simp, he⟩
      | cons t rest =>
        obtain ⟨rfl, -⟩ := List.cons.inj hrest
        exact .inl ⟨before, s, rest, rfl, hbefore, he⟩
  · rintro (⟨before, s, after, rfl, hbefore, he⟩ | ⟨hrow, before, s, after, rfl, hbefore, he⟩)
    · exact ⟨before, s, after ++ more, by simp, hbefore, he⟩
    · exact ⟨row ++ before, s, after, by simp, List.forall_mem_append.2 ⟨hrow, hbefore⟩, he⟩

section

variable {α β γ : Type} {x : Except ε α} {y : Except ε β} {f : α → β → γ}

theorem exists_bind_map_eq_ok_iff :
    (∃ c, (x >>= fun a => f a <$> y) = .ok c) ↔ (∃ a, x = .ok a) ∧ ∃ b, y = .ok b := by
  simp only [bind_eq_ok_iff, map_eq_ok_iff]
  constructor
  · rintro ⟨_, a, ha, b, hb, -⟩
    exact ⟨⟨a, ha⟩, b, hb⟩
  · rintro ⟨⟨a, ha⟩, b, hb⟩
    exact ⟨_, a, ha, b, hb, rfl⟩

theorem bind_map_eq_error_iff :
    (x >>= fun a => f a <$> y) = .error e ↔ x = .error e ∨ (∃ a, x = .ok a) ∧ y = .error e := by
  rw [bind_eq_error_iff]
  simp only [map_eq_error_iff, exists_and_right]

end

mutual

/-- A value can be filled in when all texts in it can. -/
theorem exists_fillTexts_eq_ok_iff :
    (x : Json) → ((∃ y, fillTexts fill x = .ok y) ↔ ∀ s ∈ texts x, Fillable fill s)
  | .null | .bool _ | .int _ | .float _ => by simp [fillTexts, texts]
  | .text s => by simp [fillTexts, texts, map_eq_ok_iff, Fillable]
  | .list xs => by
    simp [fillTexts, texts, map_eq_ok_iff, ← exists_fillElements_eq_ok_iff xs]
  | .object ms => by
    simp [fillTexts, texts, map_eq_ok_iff, ← exists_fillMembers_eq_ok_iff ms]

theorem exists_fillElements_eq_ok_iff : (xs : List Json) →
    ((∃ ys, fillElements fill xs = .ok ys) ↔ ∀ s ∈ elementTexts xs, Fillable fill s)
  | [] => by simp [fillElements, elementTexts]
  | x :: xs => by
    rw [elementTexts, List.forall_mem_append, ← exists_fillTexts_eq_ok_iff x,
      ← exists_fillElements_eq_ok_iff xs]
    simp [fillElements, exists_bind_map_eq_ok_iff]

theorem exists_fillMembers_eq_ok_iff : (ms : List (Text × Json)) →
    ((∃ ns, fillMembers fill ms = .ok ns) ↔ ∀ s ∈ memberTexts ms, Fillable fill s)
  | [] => by simp [fillMembers, memberTexts]
  | (name, x) :: ms => by
    rw [memberTexts, List.forall_mem_append, ← exists_fillTexts_eq_ok_iff x,
      ← exists_fillMembers_eq_ok_iff ms]
    simp [fillMembers, exists_bind_map_eq_ok_iff]

end

mutual

/-- The first text in a value that cannot be filled in decides the fault. -/
theorem fillTexts_eq_error_iff :
    (x : Json) → (fillTexts fill x = .error e ↔ FirstFault fill (texts x) e)
  | .null | .bool _ | .int _ | .float _ => by simp [fillTexts, texts, FirstFault]
  | .text s => by rw [fillTexts, map_eq_error_iff, texts, firstFault_singleton]
  | .list xs => by rw [fillTexts, map_eq_error_iff, texts, fillElements_eq_error_iff xs]
  | .object ms => by rw [fillTexts, map_eq_error_iff, texts, fillMembers_eq_error_iff ms]

theorem fillElements_eq_error_iff : (xs : List Json) →
    (fillElements fill xs = .error e ↔ FirstFault fill (elementTexts xs) e)
  | [] => by simp [fillElements, elementTexts, FirstFault]
  | x :: xs => by
    rw [elementTexts, firstFault_append, ← fillTexts_eq_error_iff x,
      ← exists_fillTexts_eq_ok_iff x, ← fillElements_eq_error_iff xs]
    simp [fillElements, bind_map_eq_error_iff]

theorem fillMembers_eq_error_iff : (ms : List (Text × Json)) →
    (fillMembers fill ms = .error e ↔ FirstFault fill (memberTexts ms) e)
  | [] => by simp [fillMembers, memberTexts, FirstFault]
  | (name, x) :: ms => by
    rw [memberTexts, firstFault_append, ← fillTexts_eq_error_iff x,
      ← exists_fillTexts_eq_ok_iff x, ← fillMembers_eq_error_iff ms]
    simp [fillMembers, bind_map_eq_error_iff]

end

/-! ## Values and rows -/

/-- The code points with a meaning in a placeholder: braces, and those behind which a name goes on
with an attribute, an index, a conversion or a form. -/
def punctuation : Text := "\x7b\x7d.[]!:"

/-- A row of parts whose names are free of punctuation and have values. -/
def HasPlainNames (values : Entries Json) (parts : List Part) : Prop :=
  ∀ name, .value name ∈ parts → (∀ x ∈ name, x ∉ punctuation) ∧ (values.get? name).isSome

theorem HasPlainNames.isBraceFree {parts : List Part} (h : HasPlainNames values parts) :
    ∀ part ∈ parts, part.IsBraceFree := by
  intro part hpart
  cases part with
  | literal t => exact trivial
  | value name =>
    obtain ⟨hplain, -⟩ := h name hpart
    exact ⟨fun hx => hplain _ hx (by decide), fun hx => hplain _ hx (by decide)⟩

/-- **Templates are filled in structurally.** In whatever way texts are filled in, a value comes out
with each of its texts filled in by itself and all else unchanged, or else with the fault of the
first text that cannot be filled in. A text that spells a row of parts, with braces written twice in
the literal ones, comes out as the texts of the parts in a row, whatever stands next to each other;
and it does so exactly when no name in it is read as a position. -/
theorem formatValue_structural (values : Entries Json) :
    (∀ (ε : Type) (fill : Text → Except ε Text) (x : Json),
      (∀ y, fillTexts fill x = .ok y ↔ Filled fill x y) ∧
        ∀ e, fillTexts fill x = .error e ↔ FirstFault fill (texts x) e) ∧
    ∀ parts, HasPlainNames values parts → ∀ t,
      format values (spelling parts) = .ok t ↔
        (∀ name, .value name ∈ parts → IsKey name) ∧ t = parts.flatMap (Part.text values) := by
  refine ⟨fun ε fill x => ⟨fun y => fillTexts_eq_ok_iff x, fun e => fillTexts_eq_error_iff x⟩, ?_⟩
  intro parts hparts t
  rw [format_spelling_eq_ok_iff hparts.isBraceFree]
  constructor
  · rintro ⟨hnames, ht⟩
    exact ⟨fun name hname => (hnames name hname).1, ht⟩
  · rintro ⟨hnames, ht⟩
    exact ⟨fun name hname => ⟨hnames name hname, (hparts name hname).2⟩, ht⟩

/-- Escapes and placeholders next to each other, and a value that itself looks like a template. -/
theorem formatValue_structural_adjacent :
    let values : Entries Json := [("a", .text "\x7bb\x7d"), ("b", .list [.bool true, .null])]
    let parts := [.literal "\x7b", .value "a", .value "b", .literal "\x7d\x7b", .value "a"]
    HasPlainNames values parts ∧
      spelling parts = "\x7b\x7b\x7ba\x7d\x7bb\x7d\x7d\x7d\x7b\x7b\x7ba\x7d" ∧
      format values (spelling parts) = .ok "\x7b\x7bb\x7d[True, None]\x7d\x7b\x7bb\x7d" := by
  intro values parts
  have hnames (name : Text) (h : .value name ∈ parts) : name = "a" ∨ name = "b" := by
    have hall : name = "a" ∨ name = "b" ∨ name = "a" := by simpa [parts] using h
    grind
  have hplain : HasPlainNames values parts := by
    intro name hname
    rcases hnames name hname with rfl | rfl <;> decide
  refine ⟨hplain, by decide, ((formatValue_structural values).2 parts hplain _).2 ⟨?_, by decide⟩⟩
  intro name hname
  rcases hnames name hname with rfl | rfl <;> decide

/-- A number is no key: the template of a value that is called `0` cannot be filled in. -/
theorem numbered_value_not_inserted :
    let values : Entries Json := [("0", .text "a")]
    HasPlainNames values [.value "0"] ∧ ¬ IsKey "0" ∧
      format values (spelling [.value "0"]) = .error (.position 0) := by
  refine ⟨?_, by decide, by decide⟩
  intro name hname
  obtain rfl : name = "0" := by simpa using hname
  decide

end SchemaScribe.Template
