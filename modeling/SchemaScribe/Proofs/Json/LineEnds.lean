import Mathlib.Data.List.Find
import SchemaScribe.Proofs.Json.Equations
import SchemaScribe.Proofs.Text.LineEnds

/-!
# Line ends in texts, numbers and words

A text and the same text with its line ends unified are read side by side: the readers find the same
and stop at the same character, or both refuse for one reason (`Agree`). Here are the texts in
quotes, the numbers and the words. No line end may stand in any of them, and a part that is read as
far as it goes ends at a line end in both.
-/

namespace SchemaScribe

namespace Json.Reader

variable {α β : Type} {chars chars' rest rest' : List Char}

/-- Two readers, the second of which reads with unified line ends, agree: they find the same and
stop at the same character, or refuse their texts for the same fault or excess. -/
inductive Agree : Except Refusal (α × Cursor) → Except Refusal (α × Cursor) → Prop
  | ok {a : α} {next next' : Cursor} (h : UnifiesTo next.rest next'.rest) :
      Agree (.ok (a, next)) (.ok (a, next'))
  | fault (what : SyntaxFault) (offset offset' : Nat) :
      Agree (.error (.fault what offset)) (.error (.fault what offset'))
  | excess (e : Excess) : Agree (.error (.excess e)) (.error (.excess e))

theorem Agree.bind {x x' : Except Refusal (α × Cursor)}
    {f f' : α × Cursor → Except Refusal (β × Cursor)} (h : Agree x x')
    (hf : ∀ a next next', x = .ok (a, next) → x' = .ok (a, next') →
      UnifiesTo next.rest next'.rest → Agree (f (a, next)) (f' (a, next'))) :
    Agree (x >>= f) (x' >>= f') := by
  cases h with
  | ok h => exact hf _ _ _ rfl rfl h
  | fault what offset offset' => exact .fault what offset offset'
  | excess e => exact .excess e

/-- What is found may be changed. -/
theorem Agree.map {x x' : Except Refusal (α × Cursor)} (h : Agree x x') (f : α → β) :
    Agree (x >>= fun p => pure (f p.1, p.2)) (x' >>= fun p => pure (f p.1, p.2)) :=
  h.bind fun _ _ _ _ _ hrest => .ok hrest

theorem unifiesTo_skipBlanks (h : UnifiesTo chars chars') (offset offset' : Nat) :
    UnifiesTo (skipBlanks offset chars).rest (skipBlanks offset' chars').rest := by
  induction h generalizing offset offset' with
  | nil => exact .nil
  | pair _ ih => exact ih _ _
  | single _ ih => exact ih _ _
  | @same c rest rest' hc hrest ih =>
    rw [skipBlanks, skipBlanks]
    split
    · exact ih _ _
    · exact .same hc hrest

/-- Two readers of parts agree: both take the same part, or neither takes any. -/
inductive TakeAlike : Option (α × List Char) → Option (α × List Char) → Prop
  | none : TakeAlike none none
  | some {a : α} {rest rest' : List Char} (h : UnifiesTo rest rest') :
      TakeAlike (some (a, rest)) (some (a, rest'))

/-! ## Texts -/

/-- What has a value as a hexadecimal digit ends no line. -/
theorem ne_lineEnd_of_hexValue? {c : Char} {n : Nat} (h : Text.hexValue? c = some n) :
    c ≠ '\r' ∧ c ≠ '\n' := by
  constructor
  · rintro rfl
    cases h
  · rintro rfl
    cases h

theorem ne_lineEnd_of_codeUnit? {a b c d : Char} {n : Nat} (h : codeUnit? a b c d = some n) :
    ∀ x ∈ [a, b, c, d], x ≠ '\r' ∧ x ≠ '\n' := by
  obtain ⟨_, ha, h⟩ := Option.bind_eq_some_iff.1 h
  obtain ⟨_, hb, h⟩ := Option.bind_eq_some_iff.1 h
  obtain ⟨_, hc, h⟩ := Option.bind_eq_some_iff.1 h
  obtain ⟨_, hd, -⟩ := Option.bind_eq_some_iff.1 h
  simp only [List.forall_mem_cons]
  exact ⟨ne_lineEnd_of_hexValue? ha, ne_lineEnd_of_hexValue? hb, ne_lineEnd_of_hexValue? hc,
    ne_lineEnd_of_hexValue? hd, by simp⟩

theorem takeAlike_codeEscape? (h : UnifiesTo chars chars') :
    TakeAlike (codeEscape? chars) (codeEscape? chars') := by
  cases hfound : codeEscape? chars with
  | some found =>
    obtain ⟨code, rest⟩ := found
    obtain ⟨hne, a, b, c, d, hcode, rfl⟩ := codeEscape?_eq_some_iff.1 hfound
    obtain ⟨rest', rfl, hrest⟩ := h.of_append fun x hx => (ne_lineEnd_of_codeUnit? hcode x hx).1
    have hfound' : codeEscape? ([a, b, c, d] ++ rest') = some (code, rest') :=
      codeEscape?_eq_some_iff.2 ⟨mt hrest.eq_nil_iff.2 hne, a, b, c, d, hcode, rfl⟩
    rw [hfound']
    exact .some hrest
  | none =>
    cases hfound' : codeEscape? chars' with
    | none => exact .none
    | some found =>
      obtain ⟨code, rest'⟩ := found
      obtain ⟨hne, a, b, c, d, hcode, rfl⟩ := codeEscape?_eq_some_iff.1 hfound'
      obtain ⟨rest, rfl, hrest⟩ :=
        h.of_append_right fun x hx => (ne_lineEnd_of_codeUnit? hcode x hx).2
      have hsome : codeEscape? ([a, b, c, d] ++ rest) = some (code, rest) :=
        codeEscape?_eq_some_iff.2 ⟨mt hrest.eq_nil_iff.1 hne, a, b, c, d, hcode, rfl⟩
      cases hfound.symm.trans hsome

/-- An escape is read alike if what follows it is. -/
theorem agree_escape {start start' offset offset' : Nat} (h : UnifiesTo rest rest')
    (hbehind : ∀ {more more' : List Char} (code offset offset' : Nat),
      more.length ≤ rest.length → UnifiesTo more more' →
      Agree (codes start offset more >>= fun p => pure (code :: p.1, p.2))
        (codes start' offset' more' >>= fun p => pure (code :: p.1, p.2))) :
    Agree (codes start offset ('\\' :: rest)) (codes start' offset' ('\\' :: rest')) := by
  cases h with
  | nil => exact .fault _ _ _
  | pair =>
    rw [codes_simpleEscape (by decide), codes_simpleEscape (by decide)]
    exact .fault _ _ _
  | single =>
    rw [codes_simpleEscape (by decide), codes_simpleEscape (by decide)]
    exact .fault _ _ _
  | @same c more more' hc hmore =>
    by_cases hu : c = 'u'
    · subst hu
      rw [codes_codeEscape, codes_codeEscape]
      have htake := takeAlike_codeEscape? hmore
      generalize hfound : codeEscape? more = found, codeEscape? more' = found' at htake
      cases htake with
      | none => exact .fault _ _ _
      | @some found rest rest' hrest =>
        obtain ⟨-, a, b, c, d, -, rfl⟩ := codeEscape?_eq_some_iff.1 hfound
        exact hbehind _ _ _ (by simp only [List.length_append, List.length_cons]; omega) hrest
    · rw [codes_simpleEscape hu, codes_simpleEscape hu]
      cases simpleEscape? c with
      | none => exact .fault _ _ _
      | some x => exact hbehind _ _ _ (by simp) hmore

/-- Texts are read alike, by induction on their length. -/
theorem agree_codes {start start' offset offset' : Nat} (h : UnifiesTo chars chars') :
    Agree (codes start offset chars) (codes start' offset' chars') := by
  induction hlength : chars.length using Nat.strong_induction_on
    generalizing chars chars' offset offset' with
  | _ length ih =>
    have hbehind : ∀ {more more' : List Char} (code offset offset' : Nat),
        more.length < length → UnifiesTo more more' →
        Agree (codes start offset more >>= fun p => pure (code :: p.1, p.2))
          (codes start' offset' more' >>= fun p => pure (code :: p.1, p.2)) :=
      fun code _ _ hlt hmore => (ih _ hlt hmore rfl).map (code :: ·)
    subst hlength
    cases h with
    | nil => exact .fault _ _ _
    | pair =>
      rw [codes_plain (by decide) (by decide), codes_plain (by decide) (by decide)]
      exact .fault _ _ _
    | single =>
      rw [codes_plain (by decide) (by decide), codes_plain (by decide) (by decide)]
      exact .fault _ _ _
    | @same c rest rest' hc hrest =>
      by_cases hquote : c = '"'
      · subst hquote
        rw [codes_quote, codes_quote]
        exact .ok hrest
      by_cases hescape : c = '\\'
      · subst hescape
        exact agree_escape hrest fun code _ _ hle =>
          hbehind code _ _ (Nat.lt_succ_of_le hle)
      rw [codes_plain hquote hescape, codes_plain hquote hescape]
      split
      · exact .fault _ _ _
      · exact hbehind _ _ _ (Nat.lt_succ_self _) hrest

theorem agree_text {start start' : Nat} (h : UnifiesTo chars chars') :
    Agree (text start chars) (text start' chars') :=
  (agree_codes h).map joinPairs

/-! ## Numbers -/

theorem isDigit_cr : Text.isDigit '\r' = false := by decide

theorem isDigit_lf : Text.isDigit '\n' = false := by decide

theorem takeAlike_whole? (h : UnifiesTo chars chars') :
    TakeAlike (whole? chars) (whole? chars') := by
  cases h with
  | nil => exact .none
  | pair => exact .none
  | single => exact .none
  | @same c rest rest' hc hrest =>
    rw [whole?, whole?]
    split
    · exact .some hrest
    split
    · rw [hrest.takeWhile_eq isDigit_cr isDigit_lf]
      exact .some (hrest.dropWhile isDigit_cr isDigit_lf)
    · exact .none

theorem takeAlike_digits? (h : UnifiesTo chars chars') :
    TakeAlike (digits? chars) (digits? chars') := by
  rw [digits?, digits?, h.takeWhile_eq isDigit_cr isDigit_lf]
  split
  · exact .none
  · exact .some (h.dropWhile isDigit_cr isDigit_lf)

theorem takeAlike_fraction? (h : UnifiesTo chars chars') :
    TakeAlike (fraction? chars) (fraction? chars') := by
  cases h with
  | nil => exact .none
  | pair => exact .none
  | single => exact .none
  | @same c rest rest' hc hrest =>
    by_cases hpoint : c = '.'
    · subst hpoint
      rw [fraction?_point, fraction?_point]
      exact takeAlike_digits? hrest
    · rw [fraction?_of_ne hpoint, fraction?_of_ne hpoint]
      exact .none

theorem sign_alike (h : UnifiesTo chars chars') :
    (sign chars).1 = (sign chars').1 ∧ UnifiesTo (sign chars).2 (sign chars').2 := by
  cases h with
  | nil => exact ⟨rfl, .nil⟩
  | pair h => exact ⟨rfl, .pair h⟩
  | single h =>
    rw [sign_of_ne (by decide) (by decide)]
    exact ⟨rfl, .single h⟩
  | @same c rest rest' hc hrest =>
    by_cases hminus : c = '-'
    · subst hminus
      exact ⟨rfl, hrest⟩
    by_cases hplus : c = '+'
    · subst hplus
      exact ⟨rfl, hrest⟩
    rw [sign_of_ne hminus hplus, sign_of_ne hminus hplus]
    exact ⟨rfl, .same hc hrest⟩

theorem takeAlike_exponent? (h : UnifiesTo chars chars') :
    TakeAlike (exponent? chars) (exponent? chars') := by
  cases h with
  | nil => exact .none
  | pair => exact .none
  | single => exact .none
  | @same c rest rest' hc hrest =>
    rw [exponent?_cons, exponent?_cons]
    split
    · obtain ⟨hsign, hbehind⟩ := sign_alike hrest
      rw [hsign]
      have htake := takeAlike_digits? hbehind
      generalize digits? (sign rest).2 = found, digits? (sign rest').2 = found' at htake ⊢
      cases htake with
      | none => exact .none
      | some h => exact .some h
    · exact .none

theorem optionally_alike {take : List Char → Option (α × List Char)} (h : UnifiesTo chars chars')
    (htake : TakeAlike (take chars) (take chars')) :
    (optionally take chars).1 = (optionally take chars').1 ∧
      UnifiesTo (optionally take chars).2 (optionally take chars').2 := by
  unfold optionally
  generalize take chars = found, take chars' = found' at htake ⊢
  cases htake with
  | none => exact ⟨rfl, h⟩
  | some hrest => exact ⟨rfl, hrest⟩

theorem takeAlike_numeral? (negative : Bool) (h : UnifiesTo chars chars') :
    TakeAlike (numeral? negative chars) (numeral? negative chars') := by
  have hwhole := takeAlike_whole? h
  rw [numeral?_eq, numeral?_eq]
  generalize whole? chars = found, whole? chars' = found' at hwhole ⊢
  cases hwhole with
  | none => exact .none
  | @some whole rest rest' hrest =>
    obtain ⟨hfraction, hbehind⟩ := optionally_alike hrest (takeAlike_fraction? hrest)
    obtain ⟨hexponent, hlast⟩ := optionally_alike hbehind (takeAlike_exponent? hbehind)
    dsimp only [Option.map]
    rw [hfraction, hexponent]
    exact .some hlast

theorem takeAlike_signed? (h : UnifiesTo chars chars') :
    TakeAlike (signed? chars) (signed? chars') := by
  unfold signed?
  split
  · next rest =>
    obtain ⟨rest', rfl, hrest⟩ := h.of_cons (by decide)
    exact takeAlike_numeral? true hrest
  · next hminus =>
    split
    · next rest' =>
      obtain ⟨rest, rfl, -⟩ := h.of_cons_right (by decide)
      exact absurd rfl (hminus rest)
    · exact takeAlike_numeral? false h

theorem ne_lineEnd_of_mem_words : ∀ w ∈ words, ∀ c ∈ w.1, c ≠ '\r' ∧ c ≠ '\n' := by
  simp [words]

/-- A word stands in both texts, or in neither. -/
theorem find?_words_eq (h : UnifiesTo chars chars') :
    words.find? (·.1.isPrefixOf chars) = words.find? (·.1.isPrefixOf chars') := by
  refine List.find?_congr fun w hw => ?_
  rw [Bool.eq_iff_iff, List.isPrefixOf_iff_prefix, List.isPrefixOf_iff_prefix]
  constructor
  · rintro ⟨rest, rfl⟩
    obtain ⟨rest', rfl, -⟩ := h.of_append fun c hc => (ne_lineEnd_of_mem_words w hw c hc).1
    exact List.prefix_append _ _
  · rintro ⟨rest', rfl⟩
    obtain ⟨rest, rfl, -⟩ := h.of_append_right fun c hc => (ne_lineEnd_of_mem_words w hw c hc).2
    exact List.prefix_append _ _

theorem agree_scalar {c c' : Cursor} (h : UnifiesTo c.rest c'.rest) :
    Agree (scalar c) (scalar c') := by
  rw [scalar_eq, scalar_eq, ← find?_words_eq h]
  cases hword : words.find? (·.1.isPrefixOf c.rest) with
  | some found =>
    obtain ⟨word, x⟩ := found
    have hstands := List.find?_some hword
    have hplain := ne_lineEnd_of_mem_words _ (List.mem_of_find?_eq_some hword)
    obtain ⟨rest, hrest⟩ := List.isPrefixOf_iff_prefix.1 hstands
    dsimp only at hrest
    rw [← hrest] at h
    obtain ⟨rest', hrest', hbehind⟩ := h.of_append fun c hc => (hplain c hc).1
    refine .ok ?_
    rw [← hrest, hrest', List.drop_left, List.drop_left]
    exact hbehind
  | none =>
    have htake := takeAlike_signed? h
    dsimp only
    generalize signed? c.rest = found, signed? c'.rest = found' at htake ⊢
    cases htake with
    | none => exact .fault _ _ _
    | some hrest =>
      dsimp only
      split
      · exact .excess _
      · exact .ok hrest

end Json.Reader

end SchemaScribe
