import SchemaScribe.Entries
import SchemaScribe.Path.Basic

/-!
# Files and directories

A tree of directories and regular files. Each file has one name: there are no links, be they
symbolic or hard, and nothing else than files and directories. There are no permissions either: what
the system lets a process do is no matter of the tree. `Node.file?` is the view that the laws speak
about: the bytes of the regular file at a place, seen from the node at the root.

* `file?_put_append` and `file?_put_of_not_isPrefix`: a write is seen at its place and below, and
  nowhere else;
* `file?_put_file`, `file?_put_directory` and `file?_erase`: where no directory stands, the three
  operations change the file at their own place at most.
-/

namespace SchemaScribe

open SchemaScribe.Path (Location)

/-- A regular file, or a directory with its entries by name. -/
inductive Node where
  | file (bytes : List UInt8)
  | directory (entries : List (Text × Node))
  deriving Repr, Inhabited

namespace Node

/-- What stands at a place. -/
def get? : Node → Location → Option Node
  | node, [] => some node
  | .file _, _ :: _ => none
  | .directory entries, name :: rest =>
    match Entries.get? entries name with
    | some child => child.get? rest
    | none => none

/-- Whether a node is a directory. -/
def isDirectory : Node → Bool
  | .file _ => false
  | .directory _ => true

/-- Whether a directory stands at a place. -/
def hasDirectory (node : Node) (place : Location) : Bool :=
  match node.get? place with
  | some child => child.isDirectory
  | none => false

/-- The bytes of the regular file at a place. -/
def file? (node : Node) (place : Location) : Option (List UInt8) :=
  match node.get? place with
  | some (.file bytes) => some bytes
  | _ => none

/-- Puts a node at a place; without a directory to hold it, nothing changes. -/
def put : Node → Location → (new : Node) → Node
  | _, [], new => new
  | .file bytes, _ :: _, _ => .file bytes
  | .directory entries, [name], new => .directory (Entries.put entries name new)
  | .directory entries, name :: next :: rest, new =>
    match Entries.get? entries name with
    | some child => .directory (Entries.put entries name (child.put (next :: rest) new))
    | none => .directory entries

/-- Removes what stands at a place. -/
def erase : Node → Location → Node
  | node, [] => node
  | .file bytes, _ :: _ => .file bytes
  | .directory entries, [name] => .directory (Entries.erase entries name)
  | .directory entries, name :: next :: rest =>
    match Entries.get? entries name with
    | some child => .directory (Entries.put entries name (erase child (next :: rest)))
    | none => .directory entries

/-! ## Look-ups -/

theorem get?_append (node : Node) (a b : Location) :
    node.get? (a ++ b) = (node.get? a).bind (·.get? b) := by
  induction a generalizing node with
  | nil => simp [get?]
  | cons name rest ih =>
    cases node with
    | file bytes => simp [get?]
    | directory entries =>
      simp only [List.cons_append, get?]
      cases Entries.get? entries name with
      | none => rfl
      | some child => exact ih child

theorem file?_directory_nil (place : Location) : (directory []).file? place = none := by
  cases place <;> simp [file?, get?, Entries.get?]

theorem file?_file (bytes : List UInt8) (place : Location) :
    (file bytes).file? place = if place = [] then some bytes else none := by
  cases place <;> simp [file?, get?]

theorem file?_cons (entries : List (Text × Node)) (name : Text) (rest : Location) :
    (directory entries).file? (name :: rest) =
      (Entries.get? entries name).bind (·.file? rest) := by
  simp only [file?, get?]
  cases Entries.get? entries name <;> rfl

/-- Where no directory stands, no file is below. -/
theorem file?_append_eq_none {node : Node} {place rest : Location}
    (h : node.hasDirectory place = false) (hrest : rest ≠ []) :
    node.file? (place ++ rest) = none := by
  simp only [hasDirectory] at h
  simp only [file?, get?_append]
  cases hp : node.get? place with
  | none => rfl
  | some child =>
    cases child with
    | directory entries => simp [hp, isDirectory] at h
    | file bytes =>
      have := file?_file bytes rest
      simpa [file?, hrest] using this

/-! ## Writes -/

theorem file?_nil (node : Node) (h : node.isDirectory = true) : node.file? [] = none := by
  cases node with
  | file bytes => simp [isDirectory] at h
  | directory entries => rfl

/-- A directory stays one whatever is put into it. -/
theorem isDirectory_put_cons (new : Node) (entries : List (Text × Node)) (name : Text)
    (below : Location) : (put (.directory entries) (name :: below) new).isDirectory = true := by
  cases below with
  | nil => rfl
  | cons next below =>
    cases hc : Entries.get? entries name <;> simp [put, hc, isDirectory]

/-- Where no directory is to hold it, a write changes nothing. -/
theorem put_eq_self (new : Node) {node : Node} {place : Location} (hne : place ≠ [])
    (h : node.hasDirectory place.dropLast = false) : node.put place new = node := by
  induction place generalizing node with
  | nil => exact absurd rfl hne
  | cons name below ih =>
    cases node with
    | file bytes => rfl
    | directory entries =>
      cases below with
      | nil => simp [hasDirectory, get?, isDirectory] at h
      | cons next below =>
        simp only [hasDirectory, List.dropLast_cons_cons, get?] at h
        cases hc : Entries.get? entries name with
        | none => simp [put, hc]
        | some child =>
          have hchild : child.put (next :: below) new = child :=
            ih (by simp) (by simpa [hasDirectory, hc] using h)
          simp only [put, hc, hchild, Entries.put_eq_self hc]

/-- A write is seen at its place and below. -/
theorem file?_put_append {node : Node} {place : Location} (new : Node) (rest : Location)
    (h : place = [] ∨ node.hasDirectory place.dropLast = true) :
    (node.put place new).file? (place ++ rest) = new.file? rest := by
  induction place generalizing node with
  | nil => simp [put]
  | cons name below ih =>
    simp only [reduceCtorEq, false_or] at h
    cases below with
    | nil =>
      cases node with
      | file bytes => simp [hasDirectory, get?, isDirectory] at h
      | directory entries => simp [put, file?_cons, Entries.get?_put_self]
    | cons next below =>
      cases node with
      | file bytes => simp [hasDirectory, get?] at h
      | directory entries =>
        simp only [hasDirectory, List.dropLast_cons_cons, get?] at h
        cases hc : Entries.get? entries name with
        | none => simp [hc] at h
        | some child =>
          simp only [put, hc, List.cons_append, file?_cons, Entries.get?_put_self,
            Option.bind_some]
          exact ih (.inr (by simpa [hasDirectory, hc] using h))

/-- A write is seen nowhere but at its place and below. -/
theorem file?_put_of_not_isPrefix (new : Node) (node : Node) {place other : Location}
    (h : ¬ place <+: other) : (node.put place new).file? other = node.file? other := by
  induction place generalizing node other with
  | nil => exact absurd (List.nil_prefix) h
  | cons name below ih =>
    cases node with
    | file bytes => simp [put]
    | directory entries =>
      cases other with
      | nil => rw [file?_nil _ (isDirectory_put_cons ..), file?_nil _ rfl]
      | cons first rest =>
        by_cases hname : first = name
        · subst hname
          have hbelow : ¬ below <+: rest := fun hp => h ((List.prefix_cons_inj first).2 hp)
          cases below with
          | nil => exact absurd List.nil_prefix hbelow
          | cons next below =>
            cases hc : Entries.get? entries first with
            | none => simp [put, hc]
            | some child =>
              simp only [put, hc, file?_cons, Entries.get?_put_self, Option.bind_some]
              exact ih child hbelow
        · cases below with
          | nil => simp [put, file?_cons, Entries.get?_put_of_ne _ _ hname]
          | cons next below =>
            cases hc : Entries.get? entries name with
            | none => simp [put, hc]
            | some child => simp [put, hc, file?_cons, Entries.get?_put_of_ne _ _ hname]

/-- Writing a file where no directory stands changes no other file. -/
theorem file?_put_file {node : Node} {place other : Location} (bytes : List UInt8)
    (h : node.hasDirectory place = false) (hne : other ≠ place) :
    (node.put place (.file bytes)).file? other = node.file? other := by
  by_cases hp : place <+: other
  · obtain ⟨rest, rfl⟩ := hp
    have hrest : rest ≠ [] := by rintro rfl; simp at hne
    rw [file?_append_eq_none h hrest]
    by_cases hd : place = [] ∨ node.hasDirectory place.dropLast = true
    · rw [file?_put_append _ _ hd, file?_file, if_neg hrest]
    · simp only [not_or, Bool.not_eq_true] at hd
      rw [put_eq_self _ hd.1 hd.2, file?_append_eq_none h hrest]
  · exact file?_put_of_not_isPrefix _ _ hp

/-- Creating a directory where nothing stands changes no file. -/
theorem file?_put_directory {node : Node} {place : Location} (other : Location)
    (h : node.get? place = none) :
    (node.put place (.directory [])).file? other = node.file? other := by
  by_cases hp : place <+: other
  · obtain ⟨rest, rfl⟩ := hp
    have before : node.file? (place ++ rest) = none := by simp [file?, get?_append, h]
    by_cases hd : place = [] ∨ node.hasDirectory place.dropLast = true
    · rw [file?_put_append _ _ hd, file?_directory_nil, before]
    · simp only [not_or, Bool.not_eq_true] at hd
      rw [put_eq_self _ hd.1 hd.2]
  · exact file?_put_of_not_isPrefix _ _ hp

/-! ## Removals -/

theorem isDirectory_erase (node : Node) (place : Location) :
    (node.erase place).isDirectory = node.isDirectory := by
  match node, place with
  | _, [] => simp [erase]
  | .file _, _ :: _ => rfl
  | .directory _, [_] => rfl
  | .directory entries, name :: next :: rest =>
    simp only [erase]
    cases Entries.get? entries name <;> rfl

theorem file?_erase_self {node : Node} {place : Location} (hne : place ≠ []) :
    (node.erase place).file? place = none := by
  induction place generalizing node with
  | nil => exact absurd rfl hne
  | cons name below ih =>
    cases node with
    | file bytes => simp [erase, file?_file]
    | directory entries =>
      cases below with
      | nil => simp [erase, file?_cons, Entries.get?_erase_self]
      | cons next below =>
        cases hc : Entries.get? entries name with
        | none => simp [erase, hc, file?_cons]
        | some child =>
          simp only [erase, hc, file?_cons, Entries.get?_put_self, Option.bind_some]
          exact ih (by simp)

/-- Removing what is no directory removes no other file. -/
theorem file?_erase {node : Node} {place other : Location}
    (h : node.hasDirectory place = false) (hne : other ≠ place) :
    (node.erase place).file? other = node.file? other := by
  induction place generalizing node other with
  | nil => cases node <;> simp [erase]
  | cons name below ih =>
    cases node with
    | file bytes => simp [erase]
    | directory entries =>
      cases other with
      | nil => rw [file?_nil _ (by rw [isDirectory_erase]; rfl), file?_nil _ rfl]
      | cons first rest =>
        by_cases hname : first = name
        · subst hname
          have hrest : rest ≠ below := by rintro rfl; exact hne rfl
          cases below with
          | nil =>
            simp only [erase, file?_cons, Entries.get?_erase_self, Option.bind_none]
            have := file?_append_eq_none h hrest
            simpa [file?_cons] using this.symm
          | cons next below =>
            cases hc : Entries.get? entries first with
            | none => simp [erase, hc]
            | some child =>
              simp only [erase, hc, file?_cons, Entries.get?_put_self, Option.bind_some]
              exact ih (by simpa [hasDirectory, get?, hc] using h) hrest
        · cases below with
          | nil => simp [erase, file?_cons, Entries.get?_erase_of_ne _ hname]
          | cons next below =>
            cases hc : Entries.get? entries name with
            | none => simp [erase, hc]
            | some child => simp [erase, hc, file?_cons, Entries.get?_put_of_ne _ _ hname]

end Node

end SchemaScribe
