import SchemaScribe.Text.Basic

/-!
# Entries in insertion order

A list of values under keys in which each key stands once, at the place where it was first
written. Main statements, in terms of the look-up `get?`:

* `get?_put_self` and `get?_put_of_ne`: a write is seen under its own key and no other;
* `get?_erase_self` and `get?_erase_of_ne`: so is a removal;
* `keys_put`: a write keeps the keys in place, a new key goes last.
-/

namespace SchemaScribe

/-- Values by key, in the order in which the keys were first written. -/
abbrev Entries (α : Type) (κ : Type := Text) := List (κ × α)

namespace Entries

variable {α κ : Type} [DecidableEq κ]

/-- The keys, in order. -/
def keys (entries : Entries α κ) : List κ := entries.map Prod.fst

/-- The value under a key. -/
def get? : Entries α κ → κ → Option α
  | [], _ => none
  | (k, v) :: rest, key => if k = key then some v else get? rest key

/-- Writes a value: over the old one when the key is there, else at the end. -/
def put : Entries α κ → κ → α → Entries α κ
  | [], key, value => [(key, value)]
  | (k, v) :: rest, key, value =>
    if k = key then (k, value) :: rest else (k, v) :: put rest key value

/-- Removes the value under a key. -/
def erase (entries : Entries α κ) (key : κ) : Entries α κ := entries.filter (·.1 ≠ key)

theorem get?_put_self (entries : Entries α κ) (key : κ) (value : α) :
    (entries.put key value).get? key = some value := by
  induction entries with
  | nil => simp [put, get?]
  | cons entry rest ih =>
    obtain ⟨k, v⟩ := entry
    by_cases h : k = key <;> simp [put, get?, h, ih]

theorem get?_put_of_ne (entries : Entries α κ) {key other : κ} (value : α)
    (h : other ≠ key) : (entries.put key value).get? other = entries.get? other := by
  induction entries with
  | nil => simp [put, get?, h.symm]
  | cons entry rest ih =>
    obtain ⟨k, v⟩ := entry
    by_cases hk : k = key
    · subst hk
      simp [put, get?, h.symm]
    · rw [put, if_neg hk, get?, get?, ih]

/-- Writing the value that is there changes nothing. -/
theorem put_eq_self {entries : Entries α κ} {key : κ} {value : α}
    (h : entries.get? key = some value) : entries.put key value = entries := by
  induction entries with
  | nil => simp [get?] at h
  | cons entry rest ih =>
    obtain ⟨k, v⟩ := entry
    by_cases hk : k = key
    · subst hk
      simp only [get?, if_true, Option.some.injEq] at h
      simp [put, h]
    · simp only [get?, hk, if_false] at h
      simp [put, hk, ih h]

theorem get?_erase_self (entries : Entries α κ) (key : κ) :
    (entries.erase key).get? key = none := by
  induction entries with
  | nil => rfl
  | cons entry rest ih =>
    obtain ⟨k, v⟩ := entry
    simp only [erase] at ih ⊢
    by_cases hk : k = key <;> simpa [get?, hk] using ih

theorem get?_erase_of_ne (entries : Entries α κ) {key other : κ} (h : other ≠ key) :
    (entries.erase key).get? other = entries.get? other := by
  induction entries with
  | nil => rfl
  | cons entry rest ih =>
    obtain ⟨k, v⟩ := entry
    simp only [erase] at ih ⊢
    by_cases hk : k = key
    · subst hk
      simpa [get?, h.symm] using ih
    · rw [List.filter_cons_of_pos (by simpa using hk), get?, get?, ih]

theorem keys_put (entries : Entries α κ) (key : κ) (value : α) :
    (entries.put key value).keys =
      if key ∈ entries.keys then entries.keys else entries.keys ++ [key] := by
  induction entries with
  | nil => simp [put, keys]
  | cons entry rest ih =>
    obtain ⟨k, v⟩ := entry
    by_cases hk : k = key
    · simp [put, hk, keys]
    · have hne : ¬ key = k := fun e => hk e.symm
      simp only [keys] at ih
      simp only [put, hk, if_false, keys, List.map_cons, ih, List.mem_cons, hne, false_or]
      split <;> simp [*]

/-- A new key goes last. -/
theorem put_eq_append {entries : Entries α κ} {key : κ} (value : α)
    (h : entries.get? key = none) : entries.put key value = entries ++ [(key, value)] := by
  induction entries with
  | nil => rfl
  | cons entry rest ih =>
    obtain ⟨k, v⟩ := entry
    by_cases hk : k = key
    · simp [get?, hk] at h
    · rw [get?, if_neg hk] at h
      rw [put, if_neg hk, ih h, List.cons_append]

/-- There is a value under a key exactly when it is one of the keys. -/
theorem get?_isSome_iff {entries : Entries α κ} {key : κ} :
    (entries.get? key).isSome ↔ key ∈ entries.keys := by
  induction entries with
  | nil => simp [get?, keys]
  | cons entry rest ih =>
    obtain ⟨k, v⟩ := entry
    by_cases hk : k = key
    · simp [get?, keys, hk]
    · rw [get?, if_neg hk, ih]
      simp [keys, Ne.symm hk]

/-- The value under a key in the entries that the elements of a list give. -/
theorem get?_map {β : Type} (l : List β) (key : β → κ) (value : β → α) (k : κ) :
    Entries.get? (l.map fun b => (key b, value b)) k =
      (l.find? fun b => key b = k).map value := by
  induction l with
  | nil => rfl
  | cons b rest ih =>
    by_cases hk : key b = k
    · simp [get?, hk]
    · simp [get?, hk, ih]

end Entries

end SchemaScribe
