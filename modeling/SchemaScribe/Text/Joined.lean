import SchemaScribe.Text.Basic

/-!
# Joined texts

Texts with a separator between each two neighbours. `Text.split` takes a text apart at a
separator, and `joined_split` says that `Text.joined` puts it together again.
-/

namespace SchemaScribe.Text

/-- The texts in a row, with the separator between neighbours. -/
def joined (separator : Text) : List Text → Text
  | [] => []
  | [s] => s
  | s :: t :: rest => s ++ separator ++ joined separator (t :: rest)

/-- The parts of a text between separators, empty ones included; there is always at least one. -/
def split (separator : CodePoint) : Text → List Text
  | [] => [[]]
  | x :: rest =>
    if x = separator then [] :: split separator rest
    else match split separator rest with
      | [] => [[x]]
      | s :: others => (x :: s) :: others

theorem split_ne_nil (separator : CodePoint) (t : Text) : split separator t ≠ [] := by
  cases t with
  | nil => simp [split]
  | cons x rest =>
    simp only [split]
    split
    · simp
    · split <;> simp

theorem joined_split (separator : CodePoint) (t : Text) :
    joined [separator] (split separator t) = t := by
  induction t with
  | nil => rfl
  | cons x rest ih =>
    have hne := split_ne_nil separator rest
    simp only [split]
    split
    · next hx =>
      cases hs : split separator rest with
      | nil => exact absurd hs hne
      | cons s others =>
        rw [hs] at ih
        simp [joined, ih, hx]
    · cases hs : split separator rest with
      | nil => exact absurd hs hne
      | cons s others =>
        rw [hs] at ih
        cases others with
        | nil => simpa [joined] using ih
        | cons u more => simpa [joined] using ih

/-- The texts in a row, each followed by a line feed. -/
def withLineEnds : List Text → Text
  | [] => []
  | s :: rest => s ++ "\n" ++ withLineEnds rest

@[simp] theorem withLineEnds_append (a b : List Text) :
    withLineEnds (a ++ b) = withLineEnds a ++ withLineEnds b := by
  induction a with
  | nil => simp [withLineEnds]
  | cons s rest ih => simp [withLineEnds, ih, List.append_assoc]

end SchemaScribe.Text
