import SchemaScribe.Proofs.Model.Field
import SchemaScribe.Proofs.Model.Walk

/-!
# Relations are transparent

A relation comes to what the column that it refers to comes to: the same type, or the same error
(`relation_transparent`). The only exception is a circular relation, which is reported with other
links from each column of the circle.

So an error is not about the relation with which a search started, but about the column at which
the chain breaks (`exists_breaksAt`), and names that one (`isAbout_of_breaksAt`).
-/

namespace SchemaScribe

/-- The error is about the column at a stop: whatever it names as the column, its table or its type
is that of the stop. -/
def ReferenceError.IsAbout (s : Stop) : ReferenceError → Prop
  | .missing _ column _ => column = s.column
  | .noKey owner column _ _ => owner = s.owner ∧ column = s.column
  | .unsupported column type => column = s.column ∧ type = s.type
  | .notAName _ => True
  | .circular _ => False

namespace Schema

/-- A chain breaks at a stop: its relation is not resolved, or it is no relation and has no type. -/
def BreaksAt (schema : Schema) (s : Stop) (e : ReferenceError) : Prop :=
  schema.Fails s e ∨ ¬ s.type.IsRelation ∧ schema.typeAt s = .error e

variable {options : Options} {schema : Schema} {s start : Stop} {e : ReferenceError}
  {name table key owner column : Name} {target : Target}

/-! ## Where a chain breaks -/

theorem isAbout_of_lookUp {α : Type} {kind : ItemKind} {found : Option α}
    (h : lookUp kind found name s.column = .error e) : e.IsAbout s := by
  unfold lookUp at h
  split at h
  · obtain rfl := Except.error.inj h
    exact trivial
  · cases found with
    | some a => cases h
    | none =>
      obtain rfl := Except.error.inj h
      exact rfl

theorem isAbout_of_targetOf (h : schema.targetOf table key s.owner s.column = .error e) :
    e.IsAbout s := by
  rcases bind_eq_error_iff.1 h with htable | ⟨found, -, hkey⟩
  · exact isAbout_of_lookUp htable
  · split at hkey
    · cases hkey
    · obtain rfl := Except.error.inj hkey
      exact ⟨rfl, rfl⟩

theorem isAbout_of_typeAt (hlast : ¬ s.type.IsRelation) (h : schema.typeAt s = .error e) :
    e.IsAbout s := by
  obtain ⟨type, owner, column⟩ := s
  unfold typeAt at h
  cases type with
  | relation name table key => exact absurd ⟨name, table, key, rfl⟩ hlast
  | enumeration name members =>
    rw [typeOf, typeAlong] at h
    rcases bind_eq_error_iff.1 h with hmembers | ⟨found, -, hfound⟩
    · exact isAbout_of_lookUp hmembers
    · cases hfound
  | common name =>
    rw [typeOf, typeAlong] at h
    split at h
    · obtain rfl := Except.error.inj h
      exact trivial
    · split at h
      · cases h
      · obtain rfl := Except.error.inj h
        exact ⟨rfl, rfl⟩
  | other value =>
    rw [typeOf, typeAlong] at h
    obtain rfl := Except.error.inj h
    exact ⟨rfl, rfl⟩
  | _ =>
    rw [typeOf, typeAlong] at h
    cases h

/-- The error with which a chain breaks names the column where it does. -/
theorem isAbout_of_breaksAt (h : schema.BreaksAt s e) : e.IsAbout s := by
  rcases h with ⟨name, table, key, -, herror⟩ | ⟨hlast, herror⟩
  · exact isAbout_of_targetOf herror
  · exact isAbout_of_typeAt hlast herror

/-- A search that fails, and not at a circle, has come to the stop at which the chain breaks. -/
theorem exists_breaksAt (h : schema.typeAt start = .error e)
    (hcircle : ∀ chain, e ≠ .circular chain) : ∃ path last, (path ++ [last]).head? = some start ∧
      (path ++ [last]).IsChain schema.Follows ∧ schema.BreaksAt last e := by
  have hends := ends_typeAt schema start
  generalize (schema.search start).2 = asked at hends
  rw [h] at hends
  generalize hresult : Except.error e = result at hends
  cases hends with
  | @plain walked last hwalk hlast =>
    exact ⟨_, last, hwalk.starts, hwalk.follows, .inr ⟨hlast, hresult.symm⟩⟩
  | @failed walked last e' hwalk hnew hlast =>
    obtain rfl := Except.error.inj hresult
    exact ⟨walked, last, hwalk.starts, hwalk.follows, .inl hlast⟩
  | circular => exact absurd (Except.error.inj hresult) (hcircle _)

/-! ## Relations -/

/-- A relation comes to what its target comes to, if it is not reported as circular. -/
theorem circular_or_typeOf_eq (h : schema.targetOf table key owner column = .ok target) :
    (∃ chain, schema.typeOf (.relation name table key) owner column = .error (.circular chain)) ∨
      schema.typeOf (.relation name table key) owner column = schema.typeAt target.stop := by
  have hnew : link owner column ∉ ([] : List Text) := List.not_mem_nil
  rw [typeOf, typeAlong_relation, if_neg hnew, h]
  exact circular_or_typeAlong_eq (List.nil_subset _)

/-- The value of a relation is declared like that of the column it refers to, which has its fields
when the relation has. -/
theorem exists_fieldsOf_target (h : schema.targetOf table key owner column = .ok target)
    {t : Table} {c : Column} (howner : t.name = owner) (hcolumn : c.name = column)
    (htype : c.type = .relation name table key) {fields : List Field}
    (hfields : schema.fieldsOf options t c = .ok fields) :
    ∃ reference value before field, fields = [reference, value] ∧
      schema.fieldsOf options target.table target.column = .ok (before ++ [field]) ∧
      value.type = field.type := by
  subst howner hcolumn
  obtain ⟨resolved, found, -, hfound, rfl⟩ := (fieldsOf_relation_eq_ok_iff htype).1 hfields
  obtain ⟨other, hother, htarget⟩ := exists_typeOf_target (htype ▸ hfound)
  obtain rfl := Except.ok.inj (h.symm.trans hother)
  obtain ⟨before, field, hfield, -, hfieldType⟩ := exists_fieldsOf_of_typeOf options htarget
  exact ⟨_, _, before, field, rfl, hfield, hfieldType.symm⟩

/-- **Relations are transparent.** A relation that is resolved to a column either is reported as
circular or comes to exactly what that column comes to; an error then names the column where the
chain breaks, which is the target or one to which relations lead from there. And where a column
that is this relation has its fields, its target has its own, and the values of both are declared
with one type. -/
theorem relation_transparent (h : schema.targetOf table key owner column = .ok target) :
    ((∃ chain, schema.typeOf (.relation name table key) owner column =
          .error (.circular chain)) ∨
      schema.typeOf (.relation name table key) owner column =
          schema.typeOf target.column.type target.table.name target.column.name ∧
        ∀ e, schema.typeOf (.relation name table key) owner column = .error e →
          ∃ path last, (path ++ [last]).head? = some target.stop ∧
            (path ++ [last]).IsChain schema.Follows ∧ schema.BreaksAt last e ∧ e.IsAbout last) ∧
    ∀ (options : Options) (t : Table) (c : Column), t.name = owner → c.name = column →
      c.type = .relation name table key →
      ∀ fields, schema.fieldsOf options t c = .ok fields →
        ∃ reference value before field, fields = [reference, value] ∧
          schema.fieldsOf options target.table target.column = .ok (before ++ [field]) ∧
          value.type = field.type := by
  refine ⟨?_, fun options t c howner hcolumn htype fields hfields =>
    exists_fieldsOf_target h howner hcolumn htype hfields⟩
  rw [or_iff_not_imp_left]
  intro hcircle
  have hsame : schema.typeOf (.relation name table key) owner column = schema.typeAt target.stop :=
    (circular_or_typeOf_eq h).resolve_left hcircle
  refine ⟨hsame, fun e he => ?_⟩
  obtain ⟨path, last, hstart, hpath, hbreaks⟩ :=
    exists_breaksAt (hsame.symm.trans he) fun chain hchain => hcircle ⟨chain, hchain ▸ he⟩
  exact ⟨path, last, hstart, hpath, hbreaks, isAbout_of_breaksAt hbreaks⟩

/-- Posts with an author and a topic; there are users, but no topics. -/
def posts : Schema :=
  [.table ⟨.text "Post",
      [⟨.text "author", .relation .null (.text "User") (.text "id"), []⟩,
        ⟨.text "topic", .relation .null (.text "Topic") (.text "id"), []⟩]⟩,
    .table ⟨.text "User", [⟨.text "id", .common (.text "int"), []⟩]⟩]

/-- A note has the author of a post, and would have its topic. -/
def postNote : Table :=
  ⟨.text "Note",
    [⟨.text "by", .relation .null (.text "Post") (.text "author"), []⟩,
      ⟨.text "on", .relation .null (.text "Post") (.text "topic"), []⟩]⟩

/-- That there are no topics is an error about the topic of a post, also for a note on the post. -/
theorem relation_transparent_posts :
    (∃ target : Target,
      posts.targetOf (.text "Post") (.text "topic") (.text "Note") (.text "on") = .ok target ∧
      posts.typeOf (.relation .null (.text "Post") (.text "topic")) (.text "Note") (.text "on") =
        posts.typeOf target.column.type target.table.name target.column.name ∧
      posts.typeOf target.column.type target.table.name target.column.name =
        .error (.missing .table (.text "topic") (.text "Topic"))) ∧
    ∃ target : Target,
      posts.targetOf (.text "Post") (.text "author") (.text "Note") (.text "by") = .ok target ∧
      ∃ reference value before field,
        posts.fieldsOf {} postNote
            ⟨.text "by", .relation .null (.text "Post") (.text "author"), []⟩ =
          .ok [reference, value] ∧
        posts.fieldsOf {} target.table target.column = .ok (before ++ [field]) ∧
        value.type = field.type := by
  constructor
  · obtain ⟨target, htarget⟩ := isOk_iff.1
      (by decide +kernel : (posts.targetOf (.text "Post") (.text "topic") (.text "Note")
        (.text "on")).isOk = true)
    have hbroken : posts.typeOf (.relation .null (.text "Post") (.text "topic")) (.text "Note")
        (.text "on") = .error (.missing .table (.text "topic") (.text "Topic")) := by
      decide +kernel
    have hcircle : ¬ ∃ chain, posts.typeOf (.relation .null (.text "Post") (.text "topic"))
        (.text "Note") (.text "on") = .error (.circular chain) := by
      rintro ⟨chain, hchain⟩
      cases hbroken.symm.trans hchain
    obtain ⟨hsame, -⟩ := (relation_transparent htarget).1.resolve_left hcircle
    exact ⟨target, htarget, hsame, hsame ▸ hbroken⟩
  · obtain ⟨target, htarget⟩ := isOk_iff.1
      (by decide +kernel : (posts.targetOf (.text "Post") (.text "author") (.text "Note")
        (.text "by")).isOk = true)
    obtain ⟨fields, hfields⟩ := isOk_iff.1 (by decide +kernel : (posts.fieldsOf {} postNote
      ⟨.text "by", .relation .null (.text "Post") (.text "author"), []⟩).isOk = true)
    obtain ⟨reference, value, before, field, rfl, htargetFields, htype⟩ :=
      (relation_transparent htarget).2 {} postNote _ rfl rfl rfl fields hfields
    exact ⟨target, htarget, reference, value, before, field, hfields, htargetFields, htype⟩

end Schema

end SchemaScribe
