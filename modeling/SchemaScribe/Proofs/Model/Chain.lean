import SchemaScribe.Model.FieldType
import SchemaScribe.Proofs.Success

/-!
# Along chains of relations

The type of a relation is that of the column it refers to (`exists_typeOf_target`). The search for
it remembers the way it came, and the search from the next column does not; that the two agree
rests on `circular_or_typeAlong_eq`: a search that remembers less comes to the same, unless the one
that remembers more reports a circular relation.

`typeAlong_induction` is the induction on searches that succeed, from the column at the end of a
chain back to its start.
-/

namespace SchemaScribe

/-- Whether a column of the type is a relation. -/
def ColumnType.IsRelation (type : ColumnType) : Prop :=
  ∃ name table key, type = .relation name table key

namespace Schema

variable {schema : Schema} {chain : List Text} {owner column name table key : Name}
  {type : ColumnType} {found : FieldType}

/-- The search at a relation: a link that is on the chain ends it, and else it goes on at the column
that the relation refers to. -/
theorem typeAlong_relation :
    schema.typeAlong chain (.relation name table key) owner column =
      if link owner column ∈ chain then .error (.circular (chain ++ [link owner column]))
      else schema.targetOf table key owner column >>= fun target =>
        schema.typeAlong (chain ++ [link owner column]) target.column.type target.table.name
          target.column.name := by
  rw [typeAlong]
  split
  · rfl
  · split
    · next e herror => rw [herror]; rfl
    · next target htarget => rw [htarget]; rfl

/-- **One step**: a relation has a type when its link is new and the column it refers to has
one. -/
theorem typeAlong_relation_eq_ok_iff :
    schema.typeAlong chain (.relation name table key) owner column = .ok found ↔
      link owner column ∉ chain ∧ ∃ target : Target,
        schema.targetOf table key owner column = .ok target ∧
        schema.typeAlong (chain ++ [link owner column]) target.column.type target.table.name
          target.column.name = .ok found := by
  rw [typeAlong_relation]
  by_cases hseen : link owner column ∈ chain
  · simp [hseen]
  · rw [if_neg hseen, bind_eq_ok_iff]
    simp [hseen]

/-- The type of a member of an enumeration is what is found by the name of the enumeration. -/
theorem typeOf_enumeration_eq_ok_iff {members : Name} :
    schema.typeOf (.enumeration name members) owner column = .ok found ↔
      ∃ e, schema.enumerationOf members column = .ok e ∧ found = .enumeration e.name := by
  rw [typeOf, typeAlong, bind_eq_ok_iff]
  exact exists_congr fun e => and_congr_right fun _ => pure_eq_ok_iff.trans eq_comm

/-- A column that is no relation has its type whatever the way to it. -/
theorem typeAlong_eq_typeOf (h : ¬ type.IsRelation) (chain : List Text) (owner column : Name) :
    schema.typeAlong chain type owner column = schema.typeOf type owner column := by
  cases type with
  | relation name table key => exact absurd ⟨name, table, key, rfl⟩ h
  | _ => simp only [typeOf, typeAlong]

/-- **Induction on a chain** with a type: from its last column, which is no relation, back over
the relations that lead there. -/
theorem typeAlong_induction (Holds : List Text → ColumnType → Name → Name → Prop)
    (last : ∀ {chain type owner column}, ¬ type.IsRelation →
      schema.typeOf type owner column = .ok found → Holds chain type owner column)
    (step : ∀ {chain owner column name table key} {target : Target}, link owner column ∉ chain →
      schema.targetOf table key owner column = .ok target →
      Holds (chain ++ [link owner column]) target.column.type target.table.name
        target.column.name → Holds chain (.relation name table key) owner column)
    (h : schema.typeAlong chain type owner column = .ok found) : Holds chain type owner column := by
  induction chain, type, owner, column using typeAlong.induct schema with
  | case9 chain owner column name table key hseen target htarget ih =>
    obtain ⟨-, other, hother, hrest⟩ := typeAlong_relation_eq_ok_iff.1 h
    obtain rfl := Except.ok.inj (htarget.symm.trans hother)
    exact step hseen htarget (ih hrest)
  | case8 chain owner column name table key hseen e herror =>
    obtain ⟨-, target, htarget, -⟩ := typeAlong_relation_eq_ok_iff.1 h
    simp [herror] at htarget
  | case7 chain owner column name table key hseen =>
    exact absurd hseen (typeAlong_relation_eq_ok_iff.1 h).1
  | _ =>
    rw [typeAlong_eq_typeOf (by simp [ColumnType.IsRelation])] at h
    exact last (by simp [ColumnType.IsRelation]) h

/-- A search that remembers only a part of the way comes to the same, unless the whole way makes it
report a circular relation: the link that it meets again may be one that the other has forgotten. -/
theorem circular_or_typeAlong_eq {part : List Text} (hpart : part ⊆ chain) :
    (∃ circle, schema.typeAlong chain type owner column = .error (.circular circle)) ∨
      schema.typeAlong chain type owner column = schema.typeAlong part type owner column := by
  induction chain, type, owner, column using typeAlong.induct schema generalizing part with
  | case9 chain owner column name table key hseen target htarget ih =>
    have hnew : link owner column ∉ part := fun hmem => hseen (hpart hmem)
    have hlonger : part ++ [link owner column] ⊆ chain ++ [link owner column] :=
      List.append_subset.2
        ⟨List.subset_append_of_subset_left _ hpart, List.subset_append_right _ _⟩
    rw [typeAlong_relation, typeAlong_relation, if_neg hseen, if_neg hnew, htarget]
    exact ih hlonger
  | case8 chain owner column name table key hseen e herror =>
    have hnew : link owner column ∉ part := fun hmem => hseen (hpart hmem)
    rw [typeAlong_relation, typeAlong_relation, if_neg hseen, if_neg hnew, herror]
    exact .inr rfl
  | case7 chain owner column name table key hseen =>
    rw [typeAlong_relation, if_pos hseen]
    exact .inl ⟨_, rfl⟩
  | _ =>
    rw [typeAlong_eq_typeOf (by simp [ColumnType.IsRelation]) part,
      typeAlong_eq_typeOf (by simp [ColumnType.IsRelation])]
    exact .inr rfl

/-- A search that remembers only a part of the way finds the same type. -/
theorem typeAlong_of_subset {part : List Text} (hpart : part ⊆ chain)
    (h : schema.typeAlong chain type owner column = .ok found) :
    schema.typeAlong part type owner column = .ok found := by
  rcases circular_or_typeAlong_eq hpart with ⟨circle, hcircular⟩ | hsame
  · cases h.symm.trans hcircular
  · rw [← hsame, h]

/-- A relation has the type of the column that it refers to. -/
theorem exists_typeOf_target
    (h : schema.typeOf (.relation name table key) owner column = .ok found) :
    ∃ target : Target, schema.targetOf table key owner column = .ok target ∧
      schema.typeOf target.column.type target.table.name target.column.name = .ok found := by
  obtain ⟨-, target, htarget, hfound⟩ := typeAlong_relation_eq_ok_iff.1 h
  exact ⟨target, htarget, typeAlong_of_subset (List.nil_subset _) hfound⟩

end Schema

end SchemaScribe
