/-!
# Success

When a computation that may fail succeeds, in terms of the computations that it is made of; and when
two computations come out alike (`Both`): with the same error, or with results that are related.
-/

namespace SchemaScribe

variable {ε ε' α β : Type}

theorem bind_eq_ok_iff {x : Except ε α} {f : α → Except ε β} {b : β} :
    (x >>= f) = .ok b ↔ ∃ a, x = .ok a ∧ f a = .ok b := by
  cases x with
  | error e => simp [bind, Except.bind]
  | ok a => simp [bind, Except.bind]

theorem bind_eq_error_iff {x : Except ε α} {f : α → Except ε β} {e : ε} :
    (x >>= f) = .error e ↔ x = .error e ∨ ∃ a, x = .ok a ∧ f a = .error e := by
  cases x with
  | error e' => simp [bind, Except.bind]
  | ok a => simp [bind, Except.bind]

theorem pure_eq_ok_iff {a b : α} : (pure a : Except ε α) = .ok b ↔ a = b := by
  simp [pure, Except.pure]

theorem map_eq_ok_iff {x : Except ε α} {f : α → β} {b : β} :
    f <$> x = .ok b ↔ ∃ a, x = .ok a ∧ f a = b := by
  cases x with
  | error e => simp [Functor.map, Except.map]
  | ok a => simp [Functor.map, Except.map]

theorem map_eq_error_iff {x : Except ε α} {f : α → β} {e : ε} :
    f <$> x = .error e ↔ x = .error e := by
  cases x with
  | error e' => simp [Functor.map, Except.map]
  | ok a => simp [Functor.map, Except.map]

theorem mapError_ok (f : ε → ε') (a : α) : (Except.ok a).mapError f = .ok a := rfl

theorem mapError_error (f : ε → ε') (e : ε) :
    (Except.error e : Except ε α).mapError f = .error (f e) := rfl

theorem mapError_eq_ok_iff {x : Except ε α} {f : ε → ε'} {a : α} :
    x.mapError f = .ok a ↔ x = .ok a := by
  cases x with
  | error e => simp [mapError_error]
  | ok b => simp [mapError_ok]

theorem mapError_eq_error_iff {x : Except ε α} {f : ε → ε'} {e : ε'} :
    x.mapError f = .error e ↔ ∃ e', x = .error e' ∧ f e' = e := by
  cases x with
  | error e' => simp [mapError_error]
  | ok a => simp [mapError_ok]

theorem exists_map_eq_ok_iff {x : Except ε α} {f : α → β} :
    (∃ b, x.map f = .ok b) ↔ ∃ a, x = .ok a := by
  cases x with
  | error e => simp [Except.map]
  | ok a => simp [Except.map]

theorem isOk_iff {x : Except ε α} : x.isOk = true ↔ ∃ a, x = .ok a := by
  cases x with
  | error e => simp [Except.isOk, Except.toBool]
  | ok a => simp [Except.isOk, Except.toBool]

theorem not_ok_iff {x : Except ε α} : (¬ ∃ a, x = .ok a) ↔ ∃ e, x = .error e := by
  cases x with
  | error e => simp
  | ok a => simp

/-! ## Two computations -/

/-- Two computations fail with the same error, or have results that are related. -/
inductive Both (R : α → β → Prop) : Except ε α → Except ε β → Prop
  | error (e : ε) : Both R (.error e) (.error e)
  | ok {a : α} {b : β} (h : R a b) : Both R (.ok a) (.ok b)

theorem both_iff {x : Except ε α} {y : Except ε β} {R : α → β → Prop} :
    Both R x y ↔ (∃ e, x = .error e ∧ y = .error e) ∨ ∃ a b, x = .ok a ∧ y = .ok b ∧ R a b := by
  constructor
  · intro h
    cases h with
    | error e => exact .inl ⟨e, rfl, rfl⟩
    | ok hab => exact .inr ⟨_, _, rfl, rfl, hab⟩
  · rintro (⟨e, rfl, rfl⟩ | ⟨a, b, rfl, rfl, hab⟩)
    · exact .error e
    · exact .ok hab

namespace Both

variable {γ δ : Type} {R : α → β → Prop} {S : γ → δ → Prop}

theorem bind {x : Except ε α} {y : Except ε β} {f : α → Except ε γ} {g : β → Except ε δ}
    (h : Both R x y) (hfg : ∀ a b, R a b → Both S (f a) (g b)) : Both S (x >>= f) (y >>= g) := by
  cases h with
  | error e => exact .error e
  | ok hab => exact hfg _ _ hab

theorem mono {x : Except ε α} {y : Except ε β} {T : α → β → Prop} (h : Both R x y)
    (hRT : ∀ a b, R a b → T a b) : Both T x y := by
  cases h with
  | error e => exact .error e
  | ok hab => exact .ok (hRT _ _ hab)

/-- Computations that are the same when a part of their results is left out. -/
theorem of_map_eq {x y : Except ε α} {f : α → γ} (h : x.map f = y.map f) :
    Both (fun a b => f a = f b) x y := by
  cases x with
  | error e =>
    cases y with
    | error e' => exact Except.error.inj h ▸ .error e
    | ok b => cases h
  | ok a =>
    cases y with
    | error e' => cases h
    | ok b => exact .ok (Except.ok.inj h)

end Both

end SchemaScribe
