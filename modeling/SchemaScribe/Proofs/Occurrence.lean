import Mathlib.Data.List.Forall2
import Mathlib.Data.List.Induction
import Mathlib.Data.List.Nodup

/-!
# First and last occurrences

Of the elements of a list that have one key, `firstsBy` keeps the first and `lastsBy` the last,
each at its place. Both are described by what a further element at the end does to them
(`firstsBy_append_singleton`, `lastsBy_append_singleton`), as a list of results grows while a
schema is compiled.
-/

namespace SchemaScribe

variable {α β κ : Type} [DecidableEq κ]

/-- The elements whose key no earlier element has, in order. -/
def firstsBy (key : α → κ) : List α → List α
  | [] => []
  | a :: rest => a :: (firstsBy key rest).filter (key · ≠ key a)

/-- The elements whose key no later element has, in order. -/
def lastsBy (key : α → κ) : List α → List α
  | [] => []
  | a :: rest => if ∃ b ∈ rest, key b = key a then lastsBy key rest else a :: lastsBy key rest

/-! ## A further element -/

theorem firstsBy_append_singleton (key : α → κ) (l : List α) (a : α) :
    firstsBy key (l ++ [a]) =
      if ∃ b ∈ l, key b = key a then firstsBy key l else firstsBy key l ++ [a] := by
  induction l with
  | nil => simp [firstsBy]
  | cons b rest ih =>
    rw [List.cons_append, firstsBy, ih, firstsBy]
    by_cases hrest : ∃ c ∈ rest, key c = key a
    · have hall : ∃ c ∈ b :: rest, key c = key a := by
        obtain ⟨c, hc, hk⟩ := hrest
        exact ⟨c, List.mem_cons_of_mem _ hc, hk⟩
      rw [if_pos hrest, if_pos hall]
    · rw [if_neg hrest, List.filter_append]
      by_cases hb : key b = key a
      · rw [if_pos ⟨b, List.mem_cons_self, hb⟩]
        simp [hb]
      · have hall : ¬ ∃ c ∈ b :: rest, key c = key a := by
          rintro ⟨c, hc, hk⟩
          rcases List.mem_cons.1 hc with rfl | hc
          · exact hb hk
          · exact hrest ⟨c, hc, hk⟩
        rw [if_neg hall]
        simp [Ne.symm hb]

theorem lastsBy_append_singleton (key : α → κ) (l : List α) (a : α) :
    lastsBy key (l ++ [a]) = (lastsBy key l).filter (key · ≠ key a) ++ [a] := by
  induction l with
  | nil => simp [lastsBy]
  | cons b rest ih =>
    rw [List.cons_append, lastsBy, ih, lastsBy]
    by_cases hb : key b = key a
    · have hall : ∃ c ∈ rest ++ [a], key c = key b := ⟨a, by simp, hb.symm⟩
      rw [if_pos hall]
      split
      · rfl
      · simp [hb]
    · have hiff : (∃ c ∈ rest ++ [a], key c = key b) ↔ ∃ c ∈ rest, key c = key b := by
        constructor
        · rintro ⟨c, hc, hk⟩
          rcases List.mem_append.1 hc with hc | hc
          · exact ⟨c, hc, hk⟩
          · obtain rfl := List.mem_singleton.1 hc
            exact absurd hk.symm hb
        · rintro ⟨c, hc, hk⟩
          exact ⟨c, List.mem_append_left _ hc, hk⟩
      simp only [hiff]
      split
      · rfl
      · simp [hb]

/-! ## Which elements are kept -/

theorem firstsBy_sublist (key : α → κ) (l : List α) : (firstsBy key l).Sublist l := by
  induction l with
  | nil => exact List.Sublist.slnil
  | cons a rest ih => exact ((List.filter_sublist).trans ih).cons_cons a

theorem lastsBy_sublist (key : α → κ) (l : List α) : (lastsBy key l).Sublist l := by
  induction l with
  | nil => exact List.Sublist.slnil
  | cons a rest ih =>
    rw [lastsBy]
    split
    · exact ih.cons a
    · exact ih.cons_cons a

theorem mem_of_mem_firstsBy {key : α → κ} {l : List α} {a : α} (h : a ∈ firstsBy key l) :
    a ∈ l := (firstsBy_sublist key l).subset h

theorem mem_of_mem_lastsBy {key : α → κ} {l : List α} {a : α} (h : a ∈ lastsBy key l) :
    a ∈ l := (lastsBy_sublist key l).subset h

/-- Every key of the list is the key of an element that `firstsBy` keeps. -/
theorem exists_mem_firstsBy {key : α → κ} {l : List α} {k : κ} (h : ∃ a ∈ l, key a = k) :
    ∃ b ∈ firstsBy key l, key b = k := by
  induction l with
  | nil => simp at h
  | cons c rest ih =>
    obtain ⟨a, ha, hk⟩ := h
    by_cases hc : key c = k
    · exact ⟨c, List.mem_cons_self, hc⟩
    · rcases List.mem_cons.1 ha with rfl | ha
      · exact absurd hk hc
      · obtain ⟨b, hb, hbk⟩ := ih ⟨a, ha, hk⟩
        refine ⟨b, List.mem_cons_of_mem _ (List.mem_filter.2 ⟨hb, ?_⟩), hbk⟩
        rw [decide_eq_true_eq, hbk]
        exact Ne.symm hc

/-- Every key of the list is the key of an element that `lastsBy` keeps. -/
theorem exists_mem_lastsBy {key : α → κ} {l : List α} {k : κ} (h : ∃ a ∈ l, key a = k) :
    ∃ b ∈ lastsBy key l, key b = k := by
  induction l with
  | nil => simp at h
  | cons c rest ih =>
    by_cases hrest : ∃ d ∈ rest, key d = k
    · obtain ⟨b, hb, hbk⟩ := ih hrest
      refine ⟨b, ?_, hbk⟩
      rw [lastsBy]
      split
      · exact hb
      · exact List.mem_cons_of_mem _ hb
    · obtain ⟨a, ha, hk⟩ := h
      rcases List.mem_cons.1 ha with rfl | ha
      · refine ⟨a, ?_, hk⟩
        rw [lastsBy, if_neg (by rwa [hk])]
        exact List.mem_cons_self
      · exact absurd ⟨a, ha, hk⟩ hrest

/-- No two elements that `lastsBy` keeps have one key. -/
theorem nodup_map_lastsBy (key : α → κ) (l : List α) : ((lastsBy key l).map key).Nodup := by
  induction l with
  | nil => exact List.nodup_nil
  | cons a rest ih =>
    rw [lastsBy]
    split
    · exact ih
    · next h =>
      refine List.nodup_cons.2 ⟨?_, ih⟩
      intro hmem
      obtain ⟨b, hb, hk⟩ := List.mem_map.1 hmem
      exact h ⟨b, mem_of_mem_lastsBy hb, hk⟩

/-- No two elements that `firstsBy` keeps have one key. -/
theorem nodup_map_firstsBy (key : α → κ) (l : List α) : ((firstsBy key l).map key).Nodup := by
  induction l with
  | nil => exact List.nodup_nil
  | cons a rest ih =>
    refine List.nodup_cons.2 ⟨?_, ?_⟩
    · intro hmem
      obtain ⟨b, hb, hk⟩ := List.mem_map.1 hmem
      simp [hk] at hb
    · exact ih.sublist (List.filter_sublist.map key)

/-- There is one first and one last element for each key. -/
theorem length_firstsBy (key : α → κ) (l : List α) :
    (firstsBy key l).length = (lastsBy key l).length := by
  have hmem : ∀ k, k ∈ (firstsBy key l).map key ↔ k ∈ (lastsBy key l).map key := by
    intro k
    rw [List.mem_map, List.mem_map]
    constructor
    · rintro ⟨a, ha, hk⟩
      exact exists_mem_lastsBy ⟨a, mem_of_mem_firstsBy ha, hk⟩
    · rintro ⟨a, ha, hk⟩
      exact exists_mem_firstsBy ⟨a, mem_of_mem_lastsBy ha, hk⟩
  have hperm := (List.perm_ext_iff_of_nodup (nodup_map_firstsBy key l)
    (nodup_map_lastsBy key l)).2 hmem
  simpa using hperm.length_eq

/-! ## Lists without repetition -/

theorem firstsBy_eq_self {key : α → κ} {l : List α} (h : (l.map key).Nodup) :
    firstsBy key l = l := by
  induction l with
  | nil => rfl
  | cons a rest ih =>
    obtain ⟨ha, hrest⟩ := List.nodup_cons.1 h
    rw [firstsBy, ih hrest, List.filter_eq_self.2]
    intro b hb
    rw [decide_eq_true_eq]
    intro hk
    exact ha (hk ▸ List.mem_map_of_mem hb)

theorem lastsBy_eq_self {key : α → κ} {l : List α} (h : (l.map key).Nodup) :
    lastsBy key l = l := by
  induction l with
  | nil => rfl
  | cons a rest ih =>
    obtain ⟨ha, hrest⟩ := List.nodup_cons.1 h
    rw [lastsBy, if_neg, ih hrest]
    rintro ⟨b, hb, hk⟩
    exact ha (hk ▸ List.mem_map_of_mem hb)

/-! ## Lists whose elements have the same keys in turn -/

theorem forall₂_firstsBy {R : α → β → Prop} {key : α → κ} {key' : β → κ} {l : List α} {m : List β}
    (hkey : ∀ a b, R a b → key a = key' b) (h : List.Forall₂ R l m) :
    List.Forall₂ R (firstsBy key l) (firstsBy key' m) := by
  induction h with
  | nil => exact .nil
  | cons hab _ ih =>
    refine .cons hab (List.rel_filter (fun c d hcd => ?_) ih)
    simp only [hkey _ _ hab, hkey _ _ hcd]

theorem forall₂_lastsBy {R : α → β → Prop} {key : α → κ} {key' : β → κ} {l : List α} {m : List β}
    (hkey : ∀ a b, R a b → key a = key' b) (h : List.Forall₂ R l m) :
    List.Forall₂ R (lastsBy key l) (lastsBy key' m) := by
  induction h with
  | nil => exact .nil
  | @cons a b rest more hab hrest ih =>
    have hkeys : rest.map key = more.map key' := by
      rw [← List.forall₂_eq_eq_eq, List.forall₂_map_left_iff, List.forall₂_map_right_iff]
      exact hrest.imp hkey
    have hlater : (∃ c ∈ rest, key c = key a) ↔ ∃ d ∈ more, key' d = key' b := by
      rw [← List.mem_map, ← List.mem_map, hkeys, hkey a b hab]
    rw [lastsBy, lastsBy]
    by_cases hc : ∃ c ∈ rest, key c = key a
    · rw [if_pos hc, if_pos (hlater.1 hc)]
      exact ih
    · rw [if_neg hc, if_neg (mt hlater.2 hc)]
      exact .cons hab ih

/-! ## Looking for a key -/

/-- The first element of a key is one that `firstsBy` keeps. -/
theorem mem_firstsBy_of_find? {key : α → κ} {l : List α} {k : κ} {a : α}
    (h : l.find? (key · = k) = some a) : a ∈ firstsBy key l := by
  induction l with
  | nil => simp at h
  | cons b rest ih =>
    rw [List.find?_cons] at h
    split at h
    · obtain rfl := Option.some.inj h
      exact List.mem_cons_self
    · next hb =>
      have hk : key a = k := by simpa using List.find?_some h
      have hne : key a ≠ key b := by
        rw [hk]
        exact fun hkb => of_decide_eq_false hb hkb.symm
      exact List.mem_cons_of_mem _ (List.mem_filter.2 ⟨ih h, decide_eq_true hne⟩)

/-- The last element of a key is one that `lastsBy` keeps. -/
theorem mem_lastsBy_of_find?_reverse {key : α → κ} {l : List α} {k : κ} {a : α}
    (h : l.reverse.find? (key · = k) = some a) : a ∈ lastsBy key l := by
  induction l using List.reverseRecOn with
  | nil => simp at h
  | append_singleton rest b ih =>
    rw [List.reverse_append, List.reverse_singleton, List.singleton_append, List.find?_cons] at h
    rw [lastsBy_append_singleton]
    split at h
    · obtain rfl := Option.some.inj h
      simp
    · next hb =>
      have hk : key a = k := by simpa using List.find?_some h
      have hne : key a ≠ key b := by
        rw [hk]
        exact fun hkb => of_decide_eq_false hb hkb.symm
      exact List.mem_append_left _ (List.mem_filter.2 ⟨ih h, decide_eq_true hne⟩)

/-- Where no two elements have one key, each is found by its own. -/
theorem find?_eq_some_iff_of_nodup {key : α → κ} {l : List α} (h : (l.map key).Nodup) {k : κ}
    {a : α} : l.find? (key · = k) = some a ↔ a ∈ l ∧ key a = k := by
  constructor
  · intro hfind
    exact ⟨List.mem_of_find?_eq_some hfind, by simpa using List.find?_some hfind⟩
  · rintro ⟨ha, rfl⟩
    have hsome : (l.find? (key · = key a)).isSome :=
      List.find?_isSome.2 ⟨a, ha, decide_eq_true rfl⟩
    obtain ⟨b, hb⟩ := Option.isSome_iff_exists.1 hsome
    have hkey : key b = key a := by simpa using List.find?_some hb
    rw [hb, List.inj_on_of_nodup_map h (List.mem_of_find?_eq_some hb) ha hkey]

/-- Where no two elements have one key, their order has no say in which is found by a key. -/
theorem find?_eq_of_perm {key : α → κ} {l m : List α} (hperm : l.Perm m)
    (h : (l.map key).Nodup) (k : κ) : l.find? (key · = k) = m.find? (key · = k) := by
  have hm : (m.map key).Nodup := (hperm.map key).nodup_iff.1 h
  ext a
  rw [find?_eq_some_iff_of_nodup h, find?_eq_some_iff_of_nodup hm, hperm.mem_iff]

end SchemaScribe
