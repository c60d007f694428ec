import SchemaScribe.Text.Basic

/-!
# Similar words

How alike two words are: the share of the characters that stand in blocks which both words have in
common. The longest common block counts first, then the longest on its left and on its right, and
so on. `Text.similar` picks the words of a list that are most like a given one.
-/

namespace SchemaScribe.Text

variable {α : Type} [DecidableEq α]

/-- The number of elements that two lists share from their first one on. -/
def sharedLength : List α → List α → Nat
  | a :: as, b :: bs => if a = b then sharedLength as bs + 1 else 0
  | _, _ => 0

/-- A block that two lists have in common: where it starts in either, and its length. -/
structure Block where
  first : Nat
  second : Nat
  length : Nat
  deriving DecidableEq, Repr, Inhabited

/-- The longest common block; of several the one that starts first in the first list, and of
these the one that starts first in the second. -/
def longestBlock (a b : List α) : Block :=
  (List.range a.length).foldl (fun best i =>
    (List.range b.length).foldl (fun best j =>
      let length := sharedLength (a.drop i) (b.drop j)
      if best.length < length then ⟨i, j, length⟩ else best) best) ⟨0, 0, 0⟩

/-- The number of elements in common blocks, the fuel bounding the depth of the search: a block
takes at least one element from the first list. -/
def commonSizeWith : (fuel : Nat) → List α → List α → Nat
  | 0, _, _ => 0
  | fuel + 1, a, b =>
    let block := longestBlock a b
    if block.length = 0 then 0
    else
      commonSizeWith fuel (a.take block.first) (b.take block.second) + block.length +
        commonSizeWith fuel (a.drop (block.first + block.length))
          (b.drop (block.second + block.length))

/-- The number of elements of the first list that stand in common blocks. -/
def commonSize (a b : List α) : Nat := commonSizeWith a.length a b

/-- How alike two words are: `matching` of all their `total` characters, those of both words
counted. -/
structure Likeness where
  matching : Nat
  total : Nat
  deriving DecidableEq, Repr, Inhabited

namespace Likeness

/-- How alike two words are. -/
def of (candidate word : List α) : Likeness :=
  ⟨2 * commonSize candidate word, candidate.length + word.length⟩

/-- How alike two words would be if the shorter one were a block of the longer: no two words of
their lengths are more alike. -/
def atBest (candidate word : List α) : Likeness :=
  ⟨2 * min candidate.length word.length, candidate.length + word.length⟩

/-- Whether three fifths of the characters or more are in common. -/
def isClose (likeness : Likeness) : Bool := 3 * likeness.total ≤ 5 * likeness.matching

/-- Whether the first share is less than the second. -/
def less (a b : Likeness) : Bool := a.matching * b.total < b.matching * a.total

end Likeness

/-- Puts a candidate into a list that goes from the best to the worst; of two that are as good
the one that is greater as a text goes first. -/
def insertByLikeness (x : Likeness × String) : List (Likeness × String) → List (Likeness × String)
  | [] => [x]
  | y :: rest =>
    if y.1.less x.1 || (!x.1.less y.1 && y.2 < x.2) then x :: y :: rest
    else y :: insertByLikeness x rest

/-- The candidates that are close to a word, at most `limit` of them, the best ones first. -/
def similar (limit : Nat) (word : Text) (candidates : List String) : List String :=
  let possible := candidates.filter fun c => (Likeness.atBest (ofString c) word).isClose
  let rated := possible.map fun candidate => (Likeness.of (ofString candidate) word, candidate)
  let ranked := (rated.filter (·.1.isClose)).foldr insertByLikeness []
  (ranked.take limit).map Prod.snd

end SchemaScribe.Text
