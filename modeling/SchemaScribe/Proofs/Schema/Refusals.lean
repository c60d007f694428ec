import SchemaScribe.Proofs.Schema.Grammar

/-!
# Where a list of items is refused

A reader is told a place only to name the place of a fault (`IsLocated`): what it gives for a value,
and which fault it finds, do not depend on where the value stands. A list is therefore refused for
the fault of the first of its elements that is refused by itself, and at the index of this element
(`readAll_eq_error_iff`). This holds of the items of a document and of the columns of a table alike
(`ofJson_refused_first`).
-/

namespace SchemaScribe.Schema

open Json (member member?)

variable {α β : Type} {place : Place} {members : List (Text × Json)}

/-! ## Readers and places -/

/-- A reader gives one value wherever it reads, or refuses for one fault, at a place that is always
the same as seen from its own. -/
def IsLocated (read : Place → Except SchemaError α) : Prop :=
  (∃ a, ∀ place, read place = .ok a) ∨
    ∃ below fault, ∀ place, read place = .error (.at (place ++ below) fault)

theorem isLocated_ok (a : α) : IsLocated fun _ => .ok a := .inl ⟨a, fun _ => rfl⟩

theorem isLocated_at (fault : SchemaFault) :
    IsLocated fun place => (.error (.at place fault) : Except SchemaError α) :=
  .inr ⟨[], fault, fun place => by rw [List.append_nil]⟩

namespace IsLocated

variable {read : Place → Except SchemaError α}

theorem bind {next : Place → α → Except SchemaError β} (h : IsLocated read)
    (hnext : ∀ a, IsLocated (next · a)) : IsLocated fun place => read place >>= next place := by
  rcases h with ⟨a, ha⟩ | ⟨below, fault, he⟩
  · rcases hnext a with ⟨b, hb⟩ | ⟨below, fault, he⟩
    · exact .inl ⟨b, fun place => bind_eq_ok_iff.2 ⟨a, ha place, hb place⟩⟩
    · exact .inr ⟨below, fault, fun place => bind_eq_error_iff.2 (.inr ⟨a, ha place, he place⟩)⟩
  · exact .inr ⟨below, fault, fun place => bind_eq_error_iff.2 (.inl (he place))⟩

/-- A reader of a part is told a place further down. -/
theorem below (h : IsLocated read) (steps : List PlaceStep) :
    IsLocated fun place => read (place ++ steps) := by
  rcases h with ⟨a, ha⟩ | ⟨below, fault, he⟩
  · exact .inl ⟨a, fun place => ha _⟩
  · refine .inr ⟨steps ++ below, fault, fun place => ?_⟩
    rw [← List.append_assoc]
    exact he (place ++ steps)

theorem eq_ok (h : IsLocated read) {a : α} (ha : read place = .ok a) (other : Place) :
    read other = .ok a := by
  rcases h with ⟨b, hb⟩ | ⟨below, fault, he⟩
  · rw [hb, ← ha, hb]
  · cases (he place).symm.trans ha

theorem exists_of_eq_error (h : IsLocated read) {e : SchemaError} (he : read place = .error e) :
    ∃ below fault, e = .at (place ++ below) fault ∧
      ∀ other, read other = .error (.at (other ++ below) fault) := by
  rcases h with ⟨a, ha⟩ | ⟨below, fault, hall⟩
  · cases (ha place).symm.trans he
  · exact ⟨below, fault, Except.error.inj (he.symm.trans (hall place)), hall⟩

theorem exists_ok_iff (h : IsLocated read) (other : Place) :
    (∃ a, read place = .ok a) ↔ ∃ a, read other = .ok a :=
  ⟨fun ⟨a, ha⟩ => ⟨a, h.eq_ok ha other⟩, fun ⟨a, ha⟩ => ⟨a, h.eq_ok ha place⟩⟩

end IsLocated

theorem isLocated_textMember (members : List (Text × Json)) (key : String) :
    IsLocated (textMember · members key) := by
  unfold textMember
  split
  · exact isLocated_ok _
  · exact isLocated_at _

theorem isLocated_listMember (members : List (Text × Json)) (key : String) :
    IsLocated (listMember · members key) := by
  unfold listMember
  split
  · exact isLocated_ok _
  · exact isLocated_at _

theorem isLocated_objectMember (members : List (Text × Json)) (key : String) :
    IsLocated (objectMember · members key) := by
  unfold objectMember
  split
  · exact isLocated_ok _
  · exact isLocated_at _

theorem isLocated_readAll {read : Place → Json → Except SchemaError α}
    (hread : ∀ x, IsLocated (read · x)) (index : Nat) (xs : List Json) :
    IsLocated (readAll read · index xs) := by
  induction xs generalizing index with
  | nil => exact isLocated_ok []
  | cons x rest ih =>
    refine ((hread x).below [.element index]).bind fun a => ?_
    exact (ih (index + 1)).bind fun tail => isLocated_ok (a :: tail)

theorem isLocated_readAttribute (x : Json) : IsLocated (readAttribute · x) := by
  unfold readAttribute
  split
  · split
    · exact isLocated_ok _
    · exact isLocated_at _
  · exact isLocated_at _

theorem isLocated_readAttributes (x : Json) : IsLocated (readAttributes · x) := by
  unfold readAttributes
  split
  · exact isLocated_ok _
  split
  · exact isLocated_ok _
  · exact isLocated_readAll isLocated_readAttribute 0 _
  · exact isLocated_at _

theorem isLocated_readType (members : List (Text × Json)) : IsLocated (readType · members) := by
  unfold readType
  dsimp only
  split
  · split
    · exact isLocated_ok _
    · exact isLocated_at _
  · exact isLocated_ok _
  · exact isLocated_ok _
  · exact (isLocated_textMember members _).bind fun _ => isLocated_ok _
  · refine (isLocated_textMember members _).bind fun _ => ?_
    exact (isLocated_textMember members _).bind fun _ => isLocated_ok _
  · exact isLocated_at _

theorem isLocated_readColumn (x : Json) : IsLocated (readColumn · x) := by
  unfold readColumn
  split
  · refine (isLocated_textMember _ _).bind fun _ => ?_
    refine (isLocated_objectMember _ _).bind fun type => ?_
    refine ((isLocated_readType type).below _).bind fun _ => ?_
    exact ((isLocated_readAttributes _).below _).bind fun _ => isLocated_ok _
  · exact isLocated_at _

/-- **Whatever is wrong with an item is found within it**, and is found wherever it stands. -/
theorem isLocated_readItem (x : Json) : IsLocated (readItem · x) := by
  unfold readItem
  split
  · refine (isLocated_textMember _ _).bind fun _ => ?_
    dsimp only
    split
    · refine (isLocated_listMember _ _).bind fun columns => ?_
      exact ((isLocated_readAll isLocated_readColumn 0 columns).below _).bind fun _ =>
        isLocated_ok _
    · refine (isLocated_listMember _ _).bind fun _ => ?_
      split
      · exact isLocated_ok _
      · exact isLocated_at _
    · exact isLocated_at _
  · exact isLocated_at _

/-! ## Lists -/

/-- A list is read in two parts, one after the other. -/
theorem readAll_append (read : Place → Json → Except SchemaError α) (place : Place) (index : Nat)
    (xs ys : List Json) : readAll read place index (xs ++ ys) = (do
      let as ← readAll read place index xs
      let bs ← readAll read place (index + xs.length) ys
      return as ++ bs) := by
  induction xs generalizing index with
  | nil =>
    rw [List.nil_append, List.length_nil, Nat.add_zero]
    cases readAll read place index ys <;> rfl
  | cons x rest ih =>
    rw [List.cons_append, readAll, readAll, ih, List.length_cons, Nat.add_right_comm, Nat.add_assoc]
    cases read (place ++ [.element index]) x with
    | error e => rfl
    | ok a =>
      cases readAll read place (index + 1) rest with
      | error e => rfl
      | ok tail => cases readAll read place (index + (rest.length + 1)) ys <;> rfl

/-- The first element of a list that is refused when it is read by itself is at the index, and this
is its error. -/
def FirstRefused (read : Json → Except SchemaError α) (xs : List Json) (index : Nat)
    (e : SchemaError) : Prop :=
  ∃ before x after, xs = before ++ x :: after ∧ before.length = index ∧
    (∀ y ∈ before, ∃ a, read y = .ok a) ∧ read x = .error e

theorem FirstRefused.head {read : Json → Except SchemaError α} {x : Json} {e : SchemaError}
    (h : read x = .error e) (rest : List Json) : FirstRefused read (x :: rest) 0 e :=
  ⟨[], x, rest, rfl, rfl, nofun, h⟩

theorem FirstRefused.cons {read : Json → Except SchemaError α} {x : Json} {rest : List Json}
    {index : Nat} {e : SchemaError} (hx : ∃ a, read x = .ok a)
    (h : FirstRefused read rest index e) : FirstRefused read (x :: rest) (index + 1) e := by
  obtain ⟨before, y, after, rfl, rfl, hbefore, hy⟩ := h
  exact ⟨x :: before, y, after, rfl, rfl, List.forall_mem_cons.2 ⟨hx, hbefore⟩, hy⟩

/-- When readers agree on what they give and on what they refuse, so they do on what is refused
first. -/
theorem FirstRefused.mono {read : Json → Except SchemaError α} {other : Json → Except SchemaError β}
    {xs : List Json} {index : Nat} {e e' : SchemaError} (h : FirstRefused read xs index e)
    (hok : ∀ x, (∃ a, read x = .ok a) → ∃ b, other x = .ok b)
    (herror : ∀ x, read x = .error e → other x = .error e') : FirstRefused other xs index e' := by
  obtain ⟨before, x, after, hsplit, hlength, hbefore, hx⟩ := h
  exact ⟨before, x, after, hsplit, hlength, fun y hy => hok y (hbefore y hy), herror x hx⟩

variable {read : Place → Json → Except SchemaError α}

/-- A list is read when all of its elements are. -/
theorem exists_readAll_iff (hread : ∀ x, IsLocated (read · x)) {index : Nat} {xs : List Json} :
    (∃ as, readAll read place index xs = .ok as) ↔ ∀ x ∈ xs, ∃ a, read [] x = .ok a := by
  induction xs generalizing index with
  | nil => exact iff_of_true ⟨[], rfl⟩ (by simp)
  | cons x rest ih =>
    rw [List.forall_mem_cons, ← ih, ← (hread x).exists_ok_iff]
    constructor
    · rintro ⟨as, h⟩
      obtain ⟨a, ha, h⟩ := bind_eq_ok_iff.1 h
      obtain ⟨tail, htail, -⟩ := bind_eq_ok_iff.1 h
      exact ⟨⟨a, ha⟩, tail, htail⟩
    · rintro ⟨⟨a, ha⟩, tail, htail⟩
      exact ⟨a :: tail, bind_eq_ok_iff.2 ⟨a, ha, bind_eq_ok_iff.2 ⟨tail, htail, rfl⟩⟩⟩

/-- **A list is refused for the fault of the first element that is refused**, at its index. -/
theorem readAll_eq_error_iff (hread : ∀ x, IsLocated (read · x)) {index : Nat} {xs : List Json}
    {e : SchemaError} : readAll read place index xs = .error e ↔
      ∃ i below fault, FirstRefused (read []) xs i (.at below fault) ∧
        e = .at (place ++ .element (index + i) :: below) fault := by
  constructor
  · intro h
    induction xs generalizing index with
    | nil => cases h
    | cons x rest ih =>
      rw [readAll] at h
      rcases bind_eq_error_iff.1 h with hx | ⟨a, ha, h⟩
      · obtain ⟨below, fault, rfl, hall⟩ := (hread x).exists_of_eq_error hx
        exact ⟨0, below, fault, .head (hall []) rest, by rw [List.append_assoc]; rfl⟩
      · rcases bind_eq_error_iff.1 h with hrest | ⟨tail, -, h⟩
        · obtain ⟨i, below, fault, hfirst, rfl⟩ := ih hrest
          refine ⟨i + 1, below, fault, hfirst.cons ⟨a, (hread x).eq_ok ha []⟩, ?_⟩
          rw [Nat.add_right_comm, Nat.add_assoc]
        · cases h
  · rintro ⟨i, below, fault, ⟨before, x, after, rfl, rfl, hbefore, hx⟩, rfl⟩
    obtain ⟨as, has⟩ := (exists_readAll_iff hread).2 hbefore
    obtain ⟨below', fault', he, hall⟩ := (hread x).exists_of_eq_error hx
    obtain ⟨rfl, rfl⟩ := SchemaError.at.inj he
    have hrest : readAll read place (index + before.length) (x :: after) =
        .error (.at (place ++ .element (index + before.length) :: below) fault) :=
      bind_eq_error_iff.2 (.inl (by rw [hall, List.append_assoc]; rfl))
    rw [readAll_append]
    exact bind_eq_error_iff.2 (.inr ⟨as, has, bind_eq_error_iff.2 (.inl hrest)⟩)

/-- A list is refused when one of its elements is. -/
theorem exists_readAll_error_iff (hread : ∀ x, IsLocated (read · x)) {index : Nat}
    {xs : List Json} : (∃ e, readAll read place index xs = .error e) ↔
      ∃ x ∈ xs, ∃ e, read [] x = .error e := by
  simp only [← not_ok_iff, exists_readAll_iff hread, not_forall, exists_prop]

/-! ## Items and columns -/

theorem ofJson_list (xs : List Json) : ofJson (.list xs) = readAll readItem [] 0 xs := rfl

/-- An item that is read as the only one of its document. -/
def alone (x : Json) : Except SchemaError Schema := ofJson (.list [x])

/-- An object of a table that has a name and a list of columns. -/
structure IsTableObject (members : List (Text × Json)) (columns : List Json) : Prop where
  name : HasText members "name"
  type : member members "type" = .text "table"
  columns : member members "columns" = .list columns

theorem exists_alone_iff {x : Json} :
    (∃ schema, alone x = .ok schema) ↔ ∃ item, readItem [] x = .ok item := by
  refine (exists_readAll_iff isLocated_readItem).trans ?_
  simp

theorem exists_alone_error_iff {x : Json} :
    (∃ e, alone x = .error e) ↔ ∃ e, readItem [] x = .error e := by
  rw [← not_ok_iff, ← not_ok_iff, exists_alone_iff]

theorem alone_eq_error_iff {x : Json} {below : Place} {fault : SchemaFault} :
    alone x = .error (.at (.element 0 :: below) fault) ↔
      readItem [] x = .error (.at below fault) := by
  constructor
  · intro h
    rw [alone, ofJson_list, readAll] at h
    rcases bind_eq_error_iff.1 h with hx | ⟨item, -, h⟩
    · obtain ⟨below', fault', he, hall⟩ := (isLocated_readItem x).exists_of_eq_error hx
      obtain ⟨hbelow, rfl⟩ := SchemaError.at.inj he
      obtain rfl := (List.cons.inj hbelow).2
      exact hall []
    · cases h
  · intro h
    obtain ⟨below', fault', he, hall⟩ := (isLocated_readItem x).exists_of_eq_error h
    obtain ⟨rfl, rfl⟩ := SchemaError.at.inj he
    rw [alone, ofJson_list, readAll]
    exact bind_eq_error_iff.2 (.inl (hall [.element 0]))

theorem firstRefused_alone_iff {xs : List Json} {i : Nat} {below : Place} {fault : SchemaFault} :
    FirstRefused alone xs i (.at (.element 0 :: below) fault) ↔
      FirstRefused (readItem []) xs i (.at below fault) :=
  ⟨fun h => h.mono (fun _ => exists_alone_iff.1) fun _ => alone_eq_error_iff.1,
    fun h => h.mono (fun _ => exists_alone_iff.2) fun _ => alone_eq_error_iff.2⟩

/-- A table is read column by column. -/
theorem exists_readItem_table {columns : List Json} (h : IsTableObject members columns) :
    ∃ name : Text, ∀ place, readItem place (.object members) = (do
      let columns ← readAll readColumn (place ++ [.field "columns"]) 0 columns
      return .table ⟨.text name, columns⟩) := by
  obtain ⟨⟨name, hname⟩, htype, hcolumns⟩ := h
  refine ⟨name, fun place => ?_⟩
  simp only [readItem, textMember_eq_ok_iff.2 hname, bind, Except.bind,
    string?_eq_some_iff.2 htype, listMember_eq_ok_iff.2 hcolumns]

theorem readItem_table_eq_error_iff {columns : List Json} (h : IsTableObject members columns)
    {e : SchemaError} : readItem place (.object members) = .error e ↔
      readAll readColumn (place ++ [.field "columns"]) 0 columns = .error e := by
  obtain ⟨name, hread⟩ := exists_readItem_table h
  rw [hread, bind_eq_error_iff]
  exact or_iff_left fun ⟨_, _, h⟩ => by cases h

/-- How a list of items is read, as against its elements when each is read alone. -/
structure ReadsInOrder (xs : List Json) : Prop where
  /-- The list is refused exactly when an element is. -/
  refused_iff : (∃ e, ofJson (.list xs) = .error e) ↔ ∃ x ∈ xs, ∃ e, alone x = .error e
  /-- The error is that of the first such element, told of its own index. -/
  error_iff : ∀ e, ofJson (.list xs) = .error e ↔
    ∃ i below fault, FirstRefused alone xs i (.at (.element 0 :: below) fault) ∧
      e = .at (.element i :: below) fault
  /-- A table with a name and a list of columns is refused exactly when a column is. The error is
  then that of the first such column, told of the indices of the table and of the column. -/
  column : ∀ before members after columns, xs = before ++ .object members :: after →
    (∀ y ∈ before, ∃ schema, alone y = .ok schema) → IsTableObject members columns →
    ((∃ e, alone (.object members) = .error e) ↔ ∃ c ∈ columns, ∃ e, readColumn [] c = .error e) ∧
    ((∃ c ∈ columns, ∃ e, readColumn [] c = .error e) →
      ∃ j below fault, FirstRefused (readColumn []) columns j (.at below fault) ∧
        ofJson (.list xs) =
          .error (.at (.element before.length :: .field "columns" :: .element j :: below) fault))
  /-- With further elements behind it, the list has the same error. -/
  append_of_error : ∀ ys e, ofJson (.list xs) = .error e → ofJson (.list (xs ++ ys)) = .error e
  /-- Otherwise the items of the further elements come behind those of the list. -/
  append_of_ok : ∀ ys schema, ofJson (.list xs) = .ok schema →
    (∀ more, ofJson (.list ys) = .ok more → ofJson (.list (xs ++ ys)) = .ok (schema ++ more)) ∧
    ∀ i below fault, ofJson (.list ys) = .error (.at (.element i :: below) fault) →
      ofJson (.list (xs ++ ys)) = .error (.at (.element (xs.length + i) :: below) fault)

theorem ofJson_list_eq_error_iff {xs : List Json} {e : SchemaError} :
    ofJson (.list xs) = .error e ↔
      ∃ i below fault, FirstRefused (readItem []) xs i (.at below fault) ∧
        e = .at (.element i :: below) fault := by
  rw [ofJson_list, readAll_eq_error_iff isLocated_readItem]
  simp only [Nat.zero_add, List.nil_append]

theorem ofJson_append (xs ys : List Json) : ofJson (.list (xs ++ ys)) = (do
    let schema ← ofJson (.list xs)
    let more ← readAll readItem [] xs.length ys
    return schema ++ more) := by
  rw [ofJson_list, readAll_append, Nat.zero_add]
  rfl

theorem textBelow_append (steps below : List PlaceStep) :
    PlaceStep.textBelow (steps ++ below) =
      PlaceStep.textBelow steps ++ PlaceStep.textBelow below := by
  induction steps with
  | nil => rfl
  | cons step rest ih =>
    cases step <;> simp only [List.cons_append, PlaceStep.textBelow, ih, List.append_assoc]

/-- The text of an error starts with the text of its place; what follows does not depend on what
leads there. -/
theorem message_at_append (place below : Place) (fault : SchemaFault) :
    (SchemaError.at (place ++ below) fault).message = place.toText ++
      (PlaceStep.textBelow below ++ (Text.ofString ": " ++ Text.ofString fault.wording)) := by
  simp only [SchemaError.message, Place.toText, textBelow_append, List.append_assoc]

/-- A table is refused when one of its columns is. -/
theorem exists_alone_table_error_iff {columns : List Json} (h : IsTableObject members columns) :
    (∃ e, alone (.object members) = .error e) ↔ ∃ c ∈ columns, ∃ e, readColumn [] c = .error e := by
  simp only [exists_alone_error_iff, readItem_table_eq_error_iff h]
  exact exists_readAll_error_iff isLocated_readColumn

/-- The fault of a table is that of its first column that is refused. -/
theorem exists_firstRefused_column {columns : List Json} (h : IsTableObject members columns)
    (hrefused : ∃ e, alone (.object members) = .error e) :
    ∃ j below fault, FirstRefused (readColumn []) columns j (.at below fault) ∧
      readItem [] (.object members) =
        .error (.at (.field "columns" :: .element j :: below) fault) := by
  obtain ⟨e, he⟩ := exists_alone_error_iff.1 hrefused
  have hcolumns := (readItem_table_eq_error_iff h).1 he
  obtain ⟨j, below, fault, hfirst, rfl⟩ := (readAll_eq_error_iff isLocated_readColumn).1 hcolumns
  rw [Nat.zero_add] at he
  exact ⟨j, below, fault, hfirst, he⟩

/-- **A list of items is refused for its first fault**, at the place where it is. The texts of
errors whose places differ in what leads to the item, or to the column, differ in the text of that
only. -/
theorem ofJson_refused_first (xs : List Json) :
    ReadsInOrder xs ∧ ∀ below fault, ∃ rest : Text, ∀ place : Place,
      (SchemaError.at (place ++ below) fault).message = place.toText ++ rest := by
  refine ⟨⟨?_, fun e => ?_, ?_, fun ys e h => ?_, fun ys schema h => ⟨fun more hmore => ?_,
    fun i below fault hys => ?_⟩⟩, fun below fault => ⟨_, fun place => message_at_append ..⟩⟩
  · simp only [exists_alone_error_iff]
    exact exists_readAll_error_iff isLocated_readItem
  · simp only [firstRefused_alone_iff]
    exact ofJson_list_eq_error_iff
  · intro before members after columns hsplit hbefore htable
    have hrefused := exists_alone_table_error_iff htable
    refine ⟨hrefused, fun hsome => ?_⟩
    obtain ⟨j, below, fault, hfirst, he⟩ := exists_firstRefused_column htable (hrefused.2 hsome)
    have hread : ∀ y ∈ before, ∃ item, readItem [] y = .ok item := fun y hy =>
      exists_alone_iff.1 (hbefore y hy)
    exact ⟨j, below, fault, hfirst, ofJson_list_eq_error_iff.2
      ⟨before.length, _, fault, ⟨before, _, after, hsplit, rfl, hread, he⟩, rfl⟩⟩
  · rw [ofJson_append, h]
    rfl
  · rw [ofJson_append, h]
    have hitems := gives_readItem.readAll_eq_ok_iff.1 (ofJson_list ys ▸ hmore)
    exact bind_eq_ok_iff.2 ⟨schema, rfl,
      bind_eq_ok_iff.2 ⟨more, gives_readItem.readAll_eq_ok_iff.2 hitems, rfl⟩⟩
  · obtain ⟨k, below', fault', hfirst, he⟩ := ofJson_list_eq_error_iff.1 hys
    simp only [SchemaError.at.injEq, List.cons.injEq, PlaceStep.element.injEq] at he
    obtain ⟨⟨rfl, rfl⟩, rfl⟩ := he
    have hmore : readAll readItem [] xs.length ys =
        .error (.at (.element (xs.length + i) :: below) fault) :=
      (readAll_eq_error_iff isLocated_readItem).2 ⟨i, below, fault, hfirst, rfl⟩
    rw [ofJson_append, h]
    exact bind_eq_error_iff.2 (.inr ⟨schema, rfl, bind_eq_error_iff.2 (.inl hmore)⟩)

/-- Of the faults in an item and behind it, the first one counts, and is told of the indices. -/
example :
    let column (kind : String) : Json :=
      .object [("name", .text "id"), ("type", .object [("kind", .text kind)])]
    let table (columns : List Json) : Json :=
      .object [("type", .text "table"), ("name", .text "User"), ("columns", .list columns)]
    ofJson (.list [table [], table [column "decimal", column "uuid", .null], .null]) =
      .error (.at [.element 1, .field "columns", .element 1, .field "type"]
        (.unknownTypeKind (.text "uuid"))) := by
  decide +kernel

end SchemaScribe.Schema
