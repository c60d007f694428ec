import Mathlib.Data.List.Infix
import Mathlib.Data.List.TakeWhile
import SchemaScribe.Proofs.Json.Equations
import SchemaScribe.Proofs.Success

/-!
# Limits of the reader

A text is refused for its size only if something in it is that big (`exceeds_of_parseNested`): a row
of more than `maxDigits` digits, or more opening brackets than there may be levels. So neither limit
is in the way of a text that keeps to them, wherever its faults are.

What is shown of each reader is that it goes on to the end of what it was given, and that whatever
it refuses for its size is in there (`ReadsOn`). Brackets are counted, not matched: each level takes
one of them.
-/

namespace SchemaScribe.Json

/-- Whether a character opens a list or an object. -/
def isOpening (c : Char) : Bool := c = '[' || c = '\x7b'

/-- Something in the characters goes beyond a limit: a row of digits, or the number of opening
brackets. -/
inductive Exceeds (levels : Nat) (chars : List Char) : Excess → Prop
  | digits {run : List Char} (hrun : run <:+: chars) (hdigits : ∀ c ∈ run, Text.isDigit c = true)
      (hlong : maxDigits < run.length) : Exceeds levels chars (.digits run.length)
  | nesting {container : Container} (h : levels < chars.countP isOpening) :
      Exceeds levels chars (.nesting container)

variable {levels : Nat} {chars rest : List Char} {e : Excess}

theorem Exceeds.of_suffix (h : Exceeds levels rest e) (hrest : rest <:+ chars) :
    Exceeds levels chars e := by
  cases h with
  | digits hrun hdigits hlong => exact .digits (hrun.trans hrest.isInfix) hdigits hlong
  | nesting h => exact .nesting (h.trans_le (hrest.sublist.countP_le))

/-- Behind an opening bracket there is one level less. -/
theorem Exceeds.of_opening {c : Char} (h : Exceeds levels rest e) (hc : isOpening c = true) :
    Exceeds (levels + 1) (c :: rest) e := by
  cases h with
  | digits hrun hdigits hlong =>
    exact .digits (hrun.trans (List.suffix_cons c rest).isInfix) hdigits hlong
  | nesting h => exact .nesting (by rw [List.countP_cons_of_pos hc]; omega)

namespace Reader

/-! ## Reading on -/

/-- A reader goes on to the end of the characters, and what it refuses for its size is in them. -/
structure ReadsOn {α : Type} (levels : Nat) (chars : List Char)
    (result : Except Refusal (α × Cursor)) : Prop where
  suffix : ∀ a next, result = .ok (a, next) → next.rest <:+ chars
  exceeds : ∀ e, result = .error (.excess e) → Exceeds levels chars e

variable {α β : Type} {c next : Cursor}

theorem readsOn_ok {a : α} (h : next.rest <:+ chars) :
    ReadsOn levels chars (.ok (a, next)) := by
  refine ⟨?_, nofun⟩
  rintro b other ⟨⟩
  exact h

theorem readsOn_fault (what : SyntaxFault) (offset : Nat) :
    ReadsOn levels chars (.error (.fault what offset) : Except Refusal (α × Cursor)) :=
  ⟨nofun, nofun⟩

theorem ReadsOn.of_suffix {result : Except Refusal (α × Cursor)} (h : ReadsOn levels rest result)
    (hrest : rest <:+ chars) : ReadsOn levels chars result where
  suffix a next hok := (h.suffix a next hok).trans hrest
  exceeds e herror := (h.exceeds e herror).of_suffix hrest

theorem ReadsOn.of_opening {result : Except Refusal (α × Cursor)} {x : Char}
    (h : ReadsOn levels rest result) (hx : isOpening x = true) :
    ReadsOn (levels + 1) (x :: rest) result where
  suffix a next hok := (h.suffix a next hok).trans (List.suffix_cons x rest)
  exceeds e herror := (h.exceeds e herror).of_opening hx

theorem ReadsOn.bind {result : Except Refusal (α × Cursor)}
    {f : α × Cursor → Except Refusal (β × Cursor)} (h : ReadsOn levels chars result)
    (hf : ∀ a next, ReadsOn levels next.rest (f (a, next))) :
    ReadsOn levels chars (result >>= f) where
  suffix b last hok := by
    obtain ⟨⟨a, next⟩, ha, hok⟩ := bind_eq_ok_iff.1 hok
    exact ((hf a next).suffix b last hok).trans (h.suffix a next ha)
  exceeds e herror := by
    rcases bind_eq_error_iff.1 herror with herror | ⟨⟨a, next⟩, ha, herror⟩
    · exact h.exceeds e herror
    · exact ((hf a next).exceeds e herror).of_suffix (h.suffix a next ha)

theorem skipBlanks_suffix (offset : Nat) (chars : List Char) :
    (skipBlanks offset chars).rest <:+ chars := by
  induction chars generalizing offset with
  | nil => exact List.suffix_refl []
  | cons x rest ih =>
    rw [skipBlanks]
    split
    · exact (ih (offset + 1)).trans (List.suffix_cons x rest)
    · exact List.suffix_refl _

/-! ## Texts -/

theorem readsOn_codes (start offset : Nat) (chars : List Char) :
    ReadsOn levels chars (codes start offset chars) := by
  fun_induction codes start offset chars with
  | case1 => exact readsOn_fault _ _
  | case2 offset rest => exact readsOn_ok (List.suffix_cons _ rest)
  | case3 offset a b c d rest code _ _ ih =>
    refine ReadsOn.of_suffix (ih.bind fun _ _ => ?_) ⟨['\\', 'u', a, b, c, d], rfl⟩
    exact readsOn_ok (List.suffix_refl _)
  | case4 => exact readsOn_fault _ _
  | case5 => exact readsOn_fault _ _
  | case6 => exact readsOn_fault _ _
  | case7 => exact readsOn_fault _ _
  | case8 offset c rest _ _ _ _ ih =>
    refine ReadsOn.of_suffix (ih.bind fun _ _ => ?_) ⟨['\\', c], rfl⟩
    exact readsOn_ok (List.suffix_refl _)
  | case9 => exact readsOn_fault _ _
  | case10 offset c rest _ _ _ _ _ _ ih =>
    refine ReadsOn.of_suffix (ih.bind fun _ _ => ?_) (List.suffix_cons c rest)
    exact readsOn_ok (List.suffix_refl _)

theorem readsOn_text (start : Nat) (chars : List Char) :
    ReadsOn levels chars (text start chars) :=
  (readsOn_codes start (start + 1) chars).bind fun _ _ => readsOn_ok (List.suffix_refl _)

/-! ## Numbers -/

theorem of_whole? {digits : List Char} (h : whole? chars = some (digits, rest)) :
    chars = digits ++ rest ∧ ∀ c ∈ digits, Text.isDigit c = true := by
  cases chars with
  | nil => cases h
  | cons d more =>
    rw [whole?] at h
    split at h
    · next hzero =>
      obtain ⟨rfl, rfl⟩ := Prod.mk.inj (Option.some.inj h)
      exact ⟨by rw [hzero, List.singleton_append], by simpa using by decide⟩
    split at h
    · next hdigit =>
      obtain ⟨rfl, rfl⟩ := Prod.mk.inj (Option.some.inj h)
      refine ⟨by rw [List.cons_append, List.takeWhile_append_dropWhile], ?_⟩
      exact List.forall_mem_cons.2 ⟨hdigit, fun c hc => List.mem_takeWhile_imp hc⟩
    · cases h

theorem suffix_of_fraction? {digits : List Char} (h : fraction? chars = some (digits, rest)) :
    rest <:+ chars := by
  unfold fraction? at h
  split at h
  · next d more =>
    split at h
    · obtain ⟨-, rfl⟩ := Prod.mk.inj (Option.some.inj h)
      exact (List.dropWhile_suffix _).trans ⟨['.', d], rfl⟩
    · cases h
  · cases h

theorem suffix_of_exponent? {part : Option Char × List Char}
    (h : exponent? chars = some (part, rest)) : rest <:+ chars := by
  unfold exponent? at h
  split at h
  · next e more =>
    split at h
    · dsimp only at h
      split at h
      · cases h
      · next digits hdigits =>
        obtain ⟨-, rfl⟩ := Prod.mk.inj (Option.some.inj h)
        refine ((List.dropWhile_suffix _).trans ?_).trans (List.suffix_cons e more)
        split
        · exact List.suffix_cons _ _
        · exact List.suffix_cons _ _
        · exact List.suffix_refl _
    · cases h
  · cases h

theorem suffix_of_optionally {take : List Char → Option (α × List Char)}
    (h : ∀ a rest, take chars = some (a, rest) → rest <:+ chars) :
    (optionally take chars).2 <:+ chars := by
  unfold optionally
  split
  · next hfound => exact h _ _ hfound
  · exact List.suffix_refl _

/-- The digits of a numeral stand at its start, and what follows it behind them. -/
theorem of_numeral? {negative : Bool} {n : Numeral}
    (h : numeral? negative chars = some (n, rest)) :
    n.whole <:+: chars ∧ (∀ c ∈ n.whole, Text.isDigit c = true) ∧ rest <:+ chars := by
  rw [numeral?_eq] at h
  obtain ⟨⟨whole, behind⟩, hwhole, hparts⟩ := Option.map_eq_some_iff.1 h
  obtain ⟨rfl, hdigits⟩ := of_whole? hwhole
  obtain ⟨rfl, rfl⟩ := Prod.mk.inj hparts
  refine ⟨(List.prefix_append _ _).isInfix, hdigits, ?_⟩
  -- The exponent is taken off what the fraction leaves, where they are there.
  have hfraction := suffix_of_optionally fun _ _ => @suffix_of_fraction? behind _ _
  have hexponent := suffix_of_optionally fun _ _ =>
    @suffix_of_exponent? (optionally fraction? behind).2 _ _
  exact (hexponent.trans hfraction).trans (List.suffix_append whole behind)

/-- The same with the sign. -/
theorem of_signed? {n : Numeral} (h : signed? chars = some (n, rest)) :
    n.whole <:+: chars ∧ (∀ c ∈ n.whole, Text.isDigit c = true) ∧ rest <:+ chars := by
  unfold signed? at h
  split at h
  · obtain ⟨hwhole, hdigits, hrest⟩ := of_numeral? h
    have hsign := List.suffix_cons '-'
    exact ⟨hwhole.trans (hsign _).isInfix, hdigits, hrest.trans (hsign _)⟩
  · exact of_numeral? h

/-- A word or a number that is refused for its size is a row of digits. -/
theorem readsOn_scalar (c : Cursor) : ReadsOn levels c.rest (scalar c) := by
  rw [scalar_eq]
  split
  · exact readsOn_ok (List.drop_suffix _ _)
  split
  · exact readsOn_fault _ _
  next n rest hfound =>
  obtain ⟨hwhole, hdigits, hrest⟩ := of_signed? hfound
  split
  · next hlong =>
    refine ⟨nofun, ?_⟩
    rintro e ⟨⟩
    exact .digits hwhole hdigits (by simpa using (Bool.and_eq_true_iff.1 hlong).2)
  · exact readsOn_ok hrest

/-! ## Values -/

/-- What `skipBlanks` leaves is read on. -/
theorem ReadsOn.of_skipBlanks (offset : Nat) {result : Except Refusal (α × Cursor)}
    (h : ReadsOn levels (skipBlanks offset chars).rest result) : ReadsOn levels chars result :=
  h.of_suffix (skipBlanks_suffix offset chars)

/-- What stands behind a mark and the blanks after it is read on. -/
theorem ReadsOn.behind {x : Char} {offset : Nat} {result : Except Refusal (α × Cursor)}
    (hc : c.rest = x :: rest) (h : ReadsOn levels (skipBlanks offset rest).rest result) :
    ReadsOn levels c.rest result :=
  (h.of_skipBlanks offset).of_suffix (hc ▸ List.suffix_cons x rest)

/-- What a mark closes is read to behind it. -/
theorem readsOn_closed {x : Char} {a : α} {offset : Nat} (hc : c.rest = x :: rest) :
    ReadsOn levels c.rest (.ok (a, ⟨offset, rest⟩)) :=
  readsOn_ok (hc ▸ List.suffix_cons x rest)

/-- A bracket for which no level is left is one more than there may be. -/
theorem readsOn_nesting {x : Char} {container : Container} (hx : isOpening x = true) :
    ReadsOn 0 (x :: rest)
      (.error (.excess (.nesting container)) : Except Refusal (α × Cursor)) := by
  refine ⟨nofun, ?_⟩
  rintro e ⟨⟩
  exact .nesting (by rw [List.countP_cons_of_pos hx]; omega)

/-- With so much fuel, all readers of values read on. -/
structure AllReadOn (fuel : Nat) : Prop where
  value : ∀ levels c, ReadsOn levels c.rest (value fuel levels c)
  elements : ∀ levels c, ReadsOn levels c.rest (elements fuel levels c)
  members : ∀ levels before c, ReadsOn levels c.rest (members fuel levels before c)

variable {fuel : Nat}

/-- A container takes its opening bracket and one level; what is in it is read with the others. -/
theorem AllReadOn.value_succ (h : AllReadOn fuel) (levels : Nat) (c : Cursor) :
    ReadsOn levels c.rest (Reader.value (fuel + 1) levels c) := by
  rw [value.eq_def]
  dsimp only
  split
  · next rest hc =>
    rw [hc]
    refine ReadsOn.of_suffix ?_ (List.suffix_cons '"' rest)
    exact (readsOn_text c.offset rest).bind fun s next => readsOn_ok (List.suffix_refl _)
  · next hc => rw [hc]; exact readsOn_nesting rfl
  · next rest levels hc =>
    rw [hc]
    refine ReadsOn.of_opening (ReadsOn.of_skipBlanks (c.offset + 1) ?_) rfl
    split
    · next hrest => exact readsOn_closed hrest
    · exact h.members _ _ _
  · next hc => rw [hc]; exact readsOn_nesting rfl
  · next rest levels hc =>
    rw [hc]
    refine ReadsOn.of_opening (ReadsOn.of_skipBlanks (c.offset + 1) ?_) rfl
    split
    · next hrest => exact readsOn_closed hrest
    · exact (h.elements _ _).bind fun _ _ => readsOn_ok (List.suffix_refl _)
  · exact readsOn_scalar c

theorem AllReadOn.elements_succ (h : AllReadOn fuel) (levels : Nat) (c : Cursor) :
    ReadsOn levels c.rest (Reader.elements (fuel + 1) levels c) := by
  rw [Reader.elements]
  refine (h.value levels c).bind fun x next => ReadsOn.of_skipBlanks next.offset ?_
  dsimp only
  split
  · next hrest => exact readsOn_closed hrest
  · next hrest =>
    refine ReadsOn.behind hrest (ReadsOn.bind (h.elements _ _) fun _ _ => ?_)
    exact readsOn_ok (List.suffix_refl _)
  · exact readsOn_fault _ _

theorem AllReadOn.members_succ (h : AllReadOn fuel) (levels : Nat) (before : Entries Json)
    (c : Cursor) : ReadsOn levels c.rest (Reader.members (fuel + 1) levels before c) := by
  rw [Reader.members]
  split
  · next rest hc =>
    rw [hc]
    refine ReadsOn.of_suffix ?_ (List.suffix_cons '"' rest)
    refine (readsOn_text c.offset rest).bind fun name next => ?_
    refine ReadsOn.of_skipBlanks next.offset ?_
    dsimp only
    split
    · next hcolon =>
      refine ReadsOn.behind hcolon (ReadsOn.bind (h.value _ _) fun x next => ?_)
      refine ReadsOn.of_skipBlanks next.offset ?_
      dsimp only
      split
      · next hrest => exact readsOn_closed hrest
      · next hrest => exact ReadsOn.behind hrest (h.members _ _ _)
      · exact readsOn_fault _ _
    · exact readsOn_fault _ _
  · exact readsOn_fault _ _

/-- All readers of values read on; by induction on the fuel, which each of them takes one of. -/
theorem allReadOn (fuel : Nat) : AllReadOn fuel := by
  induction fuel with
  | zero =>
    refine ⟨fun levels c => ?_, fun levels c => ?_, fun levels before c => ?_⟩
    · rw [value]; exact readsOn_fault _ _
    · rw [elements]; exact readsOn_fault _ _
    · rw [members]; exact readsOn_fault _ _
  | succ fuel ih => exact ⟨ih.value_succ, ih.elements_succ, ih.members_succ⟩

end Reader

/-- **A text that is refused for its size goes beyond the limit.** -/
theorem exceeds_of_parseNested {s : String} (h : parseNested levels s = .error (.excess e)) :
    Exceeds levels s.toList e := by
  obtain ⟨refusal, hdocument, he⟩ := mapError_eq_error_iff.1 h
  obtain rfl : refusal = .excess e := by
    cases refusal with
    | fault what offset => cases he
    | excess e' => cases he; rfl
  unfold Reader.document at hdocument
  split at hdocument
  · cases hdocument
  rcases bind_eq_error_iff.1 hdocument with hvalue | ⟨⟨x, next⟩, -, hrest⟩
  · exact (((Reader.allReadOn _).value levels _).of_skipBlanks 0).exceeds e hvalue
  · dsimp only at hrest
    split at hrest
    · cases hrest
    · cases hrest

-- Two lists in one another take two levels.
example : parseNested 1 "[[]]" = .error (.excess (.nesting .list)) ∧
    parseNested 2 "[[]]" = .ok (.list [.list []]) := by decide +kernel

end SchemaScribe.Json
