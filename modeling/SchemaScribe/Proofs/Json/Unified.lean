import SchemaScribe.Proofs.Json.LineEnds
import SchemaScribe.Proofs.Json.Limits

/-!
# Reading with unified line ends

It makes no difference to what is read from a text whether its line ends are unified first
(`readsAlike_unifyLineEnds`): the value is the same, or the text is refused for the same fault or
the same excess. Only the place of a fault can be another, as a line end of two characters counts
as one.

A line end is a blank where blanks may stand, and nothing else may be one. The readers of the two
texts have different fuel, as the texts have different lengths, but each has enough (`AllAgree`).
-/

namespace SchemaScribe.Json

namespace Reader

variable {chars chars' rest rest' : List Char}

/-! ## Values -/

/-- With enough fuel for what is to be read, all readers of values agree. A value takes one more
than twice the number of its characters, and a row of elements one more than its first. -/
structure AllAgree (fuel : Nat) : Prop where
  value : ∀ {fuel' levels : Nat} {c c' : Cursor}, UnifiesTo c.rest c'.rest →
    2 * c.rest.length < fuel → 2 * c'.rest.length < fuel' →
    Agree (value fuel levels c) (value fuel' levels c')
  elements : ∀ {fuel' levels : Nat} {c c' : Cursor}, UnifiesTo c.rest c'.rest →
    2 * c.rest.length + 1 < fuel → 2 * c'.rest.length + 1 < fuel' →
    Agree (elements fuel levels c) (elements fuel' levels c')
  members : ∀ {fuel' levels : Nat} {before : Entries Json} {c c' : Cursor},
    UnifiesTo c.rest c'.rest → 2 * c.rest.length < fuel → 2 * c'.rest.length < fuel' →
    Agree (members fuel levels before c) (members fuel' levels before c')

theorem length_skipBlanks_le (offset : Nat) (chars : List Char) :
    (skipBlanks offset chars).rest.length ≤ chars.length :=
  (skipBlanks_suffix offset chars).length_le

/-- A mark that is next in the one text is next in the other, and fewer characters are behind it. -/
theorem behind_mark {x : Char} {offset : Nat} {more : List Char} (hx : x ≠ '\r')
    (h : UnifiesTo chars chars') (hmark : (skipBlanks offset chars).rest = x :: more)
    (offset' : Nat) :
    ∃ more', (skipBlanks offset' chars').rest = x :: more' ∧ UnifiesTo more more' ∧
      (∀ place, 2 * (skipBlanks place more).rest.length + 1 < 2 * chars.length) ∧
      ∀ place, 2 * (skipBlanks place more').rest.length + 1 < 2 * chars'.length := by
  have hblanks := unifiesTo_skipBlanks h offset offset'
  rw [hmark] at hblanks
  obtain ⟨more', hmark', hmore⟩ := hblanks.of_cons hx
  have hlength := length_skipBlanks_le offset chars
  have hlength' := length_skipBlanks_le offset' chars'
  rw [hmark, List.length_cons] at hlength
  rw [hmark', List.length_cons] at hlength'
  refine ⟨more', hmark', hmore, fun place => ?_, fun place => ?_⟩
  · have hle := length_skipBlanks_le place more
    omega
  · have hle := length_skipBlanks_le place more'
    omega

/-- What is read of a value leaves no more characters than there were. -/
theorem length_le_of_value {fuel levels : Nat} {c next : Cursor} {x : Json}
    (h : value fuel levels c = .ok (x, next)) : next.rest.length ≤ c.rest.length :=
  (((allReadOn fuel).value levels c).suffix x next h).length_le

theorem length_le_of_text {start : Nat} {s : Text} {next : Cursor}
    (h : text start rest = .ok (s, next)) : next.rest.length ≤ rest.length := by
  have hread : ReadsOn 0 rest (text start rest) := readsOn_text start rest
  exact (hread.suffix s next h).length_le

variable {fuel fuel' levels : Nat} {c c' : Cursor}

/-- Objects are read alike behind their opening brackets, if their members are. -/
theorem AllAgree.object (h : AllAgree fuel) {offset offset' : Nat} (hrest : UnifiesTo rest rest')
    (hfuel : 2 * rest.length < fuel) (hfuel' : 2 * rest'.length < fuel') :
    Agree (Reader.value (fuel + 1) (levels + 1) ⟨offset, '\x7b' :: rest⟩)
      (Reader.value (fuel' + 1) (levels + 1) ⟨offset', '\x7b' :: rest'⟩) := by
  have hfirst := unifiesTo_skipBlanks hrest (offset + 1) (offset' + 1)
  have hlength := length_skipBlanks_le (offset + 1) rest
  have hlength' := length_skipBlanks_le (offset' + 1) rest'
  rw [value_object, value_object]
  split
  · next more hclosed =>
    obtain ⟨more', hclosed', hmore, -⟩ := behind_mark (by decide) hrest hclosed (offset' + 1)
    simp only [hclosed']
    exact .ok hmore
  · next hopen =>
    split
    · next more' hclosed' => exact (hfirst.ne_cons (by decide) hopen more' hclosed').elim
    · exact h.members hfirst (by omega) (by omega)

/-- Lists are read alike behind their opening brackets, if their elements are. -/
theorem AllAgree.list (h : AllAgree fuel) {offset offset' : Nat} (hrest : UnifiesTo rest rest')
    (hfuel : 2 * rest.length + 1 < fuel) (hfuel' : 2 * rest'.length + 1 < fuel') :
    Agree (Reader.value (fuel + 1) (levels + 1) ⟨offset, '[' :: rest⟩)
      (Reader.value (fuel' + 1) (levels + 1) ⟨offset', '[' :: rest'⟩) := by
  have hfirst := unifiesTo_skipBlanks hrest (offset + 1) (offset' + 1)
  have hlength := length_skipBlanks_le (offset + 1) rest
  have hlength' := length_skipBlanks_le (offset' + 1) rest'
  rw [value_list, value_list]
  split
  · next more hclosed =>
    obtain ⟨more', hclosed', hmore, -⟩ := behind_mark (by decide) hrest hclosed (offset' + 1)
    simp only [hclosed']
    exact .ok hmore
  · next hopen =>
    split
    · next more' hclosed' => exact (hfirst.ne_cons (by decide) hopen more' hclosed').elim
    · exact (h.elements hfirst (by omega) (by omega)).map Json.list

theorem AllAgree.value_succ (h : AllAgree fuel) (hrest : UnifiesTo c.rest c'.rest)
    (hfuel : 2 * c.rest.length < fuel + 1) (hfuel' : 2 * c'.rest.length < fuel' + 1) :
    Agree (Reader.value (fuel + 1) levels c) (Reader.value (fuel' + 1) levels c') := by
  obtain ⟨offset, chars⟩ := c
  obtain ⟨offset', chars'⟩ := c'
  dsimp only at hrest hfuel hfuel'
  cases hrest with
  | nil => exact .fault _ _ _
  | pair hrest =>
    rw [value_scalar (by decide) (by decide) (by decide),
      value_scalar (by decide) (by decide) (by decide)]
    exact agree_scalar (.pair hrest)
  | single hrest =>
    rw [value_scalar (by decide) (by decide) (by decide),
      value_scalar (by decide) (by decide) (by decide)]
    exact agree_scalar (.single hrest)
  | @same x rest rest' hx hrest =>
    rw [List.length_cons] at hfuel hfuel'
    by_cases hquote : x = '"'
    · subst hquote
      exact (agree_text hrest).map Json.text
    by_cases hobject : x = '\x7b'
    · subst hobject
      cases levels with
      | zero => exact .excess _
      | succ levels => exact h.object hrest (by omega) (by omega)
    by_cases hlist : x = '['
    · subst hlist
      cases levels with
      | zero => exact .excess _
      | succ levels => exact h.list hrest (by omega) (by omega)
    rw [value_scalar hquote hobject hlist, value_scalar hquote hobject hlist]
    exact agree_scalar (.same hx hrest)

theorem AllAgree.elements_succ (h : AllAgree fuel) (hrest : UnifiesTo c.rest c'.rest)
    (hfuel : 2 * c.rest.length + 1 < fuel + 1) (hfuel' : 2 * c'.rest.length + 1 < fuel' + 1) :
    Agree (Reader.elements (fuel + 1) levels c) (Reader.elements (fuel' + 1) levels c') := by
  rw [Reader.elements, Reader.elements]
  refine (h.value hrest (by omega) (by omega)).bind fun x next next' hx hx' hnext => ?_
  have hle := length_le_of_value hx
  have hle' := length_le_of_value hx'
  have hmark := unifiesTo_skipBlanks hnext next.offset next'.offset
  dsimp only
  split
  · next more hclosed =>
    obtain ⟨more', hclosed', hmore, -⟩ := behind_mark (by decide) hnext hclosed next'.offset
    simp only [hclosed']
    exact .ok hmore
  · next more hcomma =>
    obtain ⟨more', hcomma', hmore, hlt, hlt'⟩ := behind_mark (by decide) hnext hcomma next'.offset
    simp only [hcomma']
    exact (h.elements (unifiesTo_skipBlanks hmore _ _) ((hlt _).trans_le (by omega))
      ((hlt' _).trans_le (by omega))).map (x :: ·)
  · next hopen hlast =>
    split
    · next more' hclosed' => exact (hmark.ne_cons (by decide) hopen more' hclosed').elim
    · next more' hcomma' => exact (hmark.ne_cons (by decide) hlast more' hcomma').elim
    · exact .fault _ _ _

theorem AllAgree.membersBehind (h : AllAgree fuel) (all : Entries Json) {next next' : Cursor}
    (hnext : UnifiesTo next.rest next'.rest) (hfuel : 2 * next.rest.length < fuel)
    (hfuel' : 2 * next'.rest.length < fuel') :
    Agree (membersBehind fuel levels all next) (membersBehind fuel' levels all next') := by
  have hmark := unifiesTo_skipBlanks hnext next.offset next'.offset
  unfold Reader.membersBehind
  dsimp only
  split
  · next more hclosed =>
    obtain ⟨more', hclosed', hmore, -⟩ := behind_mark (by decide) hnext hclosed next'.offset
    simp only [hclosed']
    exact .ok hmore
  · next more hcomma =>
    obtain ⟨more', hcomma', hmore, hlt, hlt'⟩ := behind_mark (by decide) hnext hcomma next'.offset
    simp only [hcomma']
    exact h.members (unifiesTo_skipBlanks hmore _ _) ((Nat.lt_of_succ_lt (hlt _)).trans hfuel)
      ((Nat.lt_of_succ_lt (hlt' _)).trans hfuel')
  · next hopen hlast =>
    split
    · next more' hclosed' => exact (hmark.ne_cons (by decide) hopen more' hclosed').elim
    · next more' hcomma' => exact (hmark.ne_cons (by decide) hlast more' hcomma').elim
    · exact .fault _ _ _

theorem AllAgree.membersFrom (h : AllAgree fuel) (before : Entries Json) (name : Text)
    {next next' : Cursor} (hnext : UnifiesTo next.rest next'.rest)
    (hfuel : 2 * next.rest.length < fuel) (hfuel' : 2 * next'.rest.length < fuel') :
    Agree (membersFrom fuel levels before name next)
      (membersFrom fuel' levels before name next') := by
  have hmark := unifiesTo_skipBlanks hnext next.offset next'.offset
  unfold Reader.membersFrom
  dsimp only
  split
  · next more hcolon =>
    obtain ⟨more', hcolon', hmore, hlt, hlt'⟩ := behind_mark (by decide) hnext hcolon next'.offset
    simp only [hcolon']
    have hstart := Nat.lt_of_succ_lt (hlt ((skipBlanks next.offset next.rest).offset + 1))
    have hstart' := Nat.lt_of_succ_lt (hlt' ((skipBlanks next'.offset next'.rest).offset + 1))
    refine (h.value (unifiesTo_skipBlanks hmore _ _) (hstart.trans hfuel)
      (hstart'.trans hfuel')).bind fun x last last' hx hx' hlast => ?_
    have hle := length_le_of_value hx
    have hle' := length_le_of_value hx'
    dsimp only
    exact h.membersBehind _ hlast (by omega) (by omega)
  · next hother =>
    split
    · next more' hcolon' => exact (hmark.ne_cons (by decide) hother more' hcolon').elim
    · exact .fault _ _ _

theorem AllAgree.members_succ (h : AllAgree fuel) {before : Entries Json}
    (hrest : UnifiesTo c.rest c'.rest) (hfuel : 2 * c.rest.length < fuel + 1)
    (hfuel' : 2 * c'.rest.length < fuel' + 1) :
    Agree (Reader.members (fuel + 1) levels before c)
      (Reader.members (fuel' + 1) levels before c') := by
  by_cases hquote : ∃ rest, c.rest = '"' :: rest
  · obtain ⟨offset, chars⟩ := c
    obtain ⟨offset', chars'⟩ := c'
    obtain ⟨rest, rfl⟩ := hquote
    obtain ⟨rest', rfl, hbehind⟩ := hrest.of_cons (by decide)
    dsimp only [List.length_cons] at hfuel hfuel'
    rw [members_quote, members_quote]
    refine (agree_text hbehind).bind fun name next next' hname hname' hnext => ?_
    have hle := length_le_of_text hname
    have hle' := length_le_of_text hname'
    dsimp only
    exact h.membersFrom before name hnext (by omega) (by omega)
  · have hne : ∀ rest, c.rest = '"' :: rest → False := fun rest h => hquote ⟨rest, h⟩
    rw [members_of_ne hne, members_of_ne (hrest.ne_cons (by decide) hne)]
    exact .fault _ _ _

/-- All readers of values agree, by induction on the fuel, which each of them takes one of; without
any, there is too little. -/
theorem allAgree (fuel : Nat) : AllAgree fuel := by
  induction fuel with
  | zero =>
    exact ⟨fun _ h => absurd h (Nat.not_lt_zero _), fun _ h => absurd h (Nat.not_lt_zero _),
      fun _ h => absurd h (Nat.not_lt_zero _)⟩
  | succ fuel ih =>
    refine ⟨fun {fuel'} => ?_, fun {fuel'} => ?_, fun {fuel'} => ?_⟩
    · cases fuel' with
      | zero => exact fun _ _ h => absurd h (Nat.not_lt_zero _)
      | succ fuel' => exact ih.value_succ
    · cases fuel' with
      | zero => exact fun _ _ h => absurd h (Nat.not_lt_zero _)
      | succ fuel' => exact ih.elements_succ
    · cases fuel' with
      | zero => exact fun _ _ h => absurd h (Nat.not_lt_zero _)
      | succ fuel' => exact ih.members_succ

end Reader

/-- Two results of reading are alike: the same value, the same fault at whatever place, or the same
excess. -/
inductive ReadsAlike : Except ReadError Json → Except ReadError Json → Prop
  | ok (x : Json) : ReadsAlike (.ok x) (.ok x)
  | malformed {e e' : SyntaxError} (h : e.fault = e'.fault) :
      ReadsAlike (.error (.malformed e)) (.error (.malformed e'))
  | excess (e : Excess) : ReadsAlike (.error (.excess e)) (.error (.excess e))

theorem readsAlike_document {chars chars' : List Char} (h : UnifiesTo chars chars')
    (levels : Nat) :
    ReadsAlike ((Reader.document levels chars).mapError (Reader.Refusal.located chars))
      ((Reader.document levels chars').mapError (Reader.Refusal.located chars')) := by
  by_cases hmark : ∃ rest, chars = '\uFEFF' :: rest
  · obtain ⟨rest, rfl⟩ := hmark
    obtain ⟨rest', rfl, -⟩ := h.of_cons (by decide)
    exact .malformed rfl
  have hne : ∀ rest, chars = '\uFEFF' :: rest → False := fun rest h => hmark ⟨rest, h⟩
  rw [Reader.document_eq hne, Reader.document_eq (h.ne_cons (by decide) hne)]
  have hlength := Reader.length_skipBlanks_le 0 chars
  have hlength' := Reader.length_skipBlanks_le 0 chars'
  have hvalue : Reader.Agree
      (Reader.value (2 * chars.length + 2) levels (Reader.skipBlanks 0 chars))
      (Reader.value (2 * chars'.length + 2) levels (Reader.skipBlanks 0 chars')) :=
    (Reader.allAgree _).value (Reader.unifiesTo_skipBlanks h 0 0) (by omega) (by omega)
  generalize Reader.value (2 * chars.length + 2) levels (Reader.skipBlanks 0 chars) = result,
    Reader.value (2 * chars'.length + 2) levels (Reader.skipBlanks 0 chars') = result' at hvalue ⊢
  cases hvalue with
  | fault what offset offset' => exact .malformed rfl
  | excess e => exact .excess e
  | @ok x next next' hnext =>
    have hend := (Reader.unifiesTo_skipBlanks hnext next.offset next'.offset).eq_nil_iff
    dsimp only [bind, Except.bind]
    by_cases hempty : (Reader.skipBlanks next.offset next.rest).rest = []
    · rw [if_pos hempty, if_pos (hend.1 hempty)]
      exact .ok x
    · rw [if_neg hempty, if_neg (mt hend.2 hempty)]
      exact .malformed rfl

/-- **It makes no difference to what is read from a text whether its line ends are unified.** -/
theorem readsAlike_unifyLineEnds (levels : Nat) (chars : List Char) :
    ReadsAlike (parseNested levels (String.ofList chars))
      (parseNested levels (String.ofList (Text.unifyLineEnds chars))) := by
  have h := readsAlike_document (unifiesTo_unifyLineEnds chars) levels
  simpa only [parseNested, String.toList_ofList] using h

-- The place of a fault counts characters, so that it can be another.
example : parse "[\r\n" = .error (.malformed ⟨.expectingValue, 3, 2, 1⟩) ∧
    parse "[\n" = .error (.malformed ⟨.expectingValue, 2, 2, 1⟩) := by decide +kernel

end SchemaScribe.Json
