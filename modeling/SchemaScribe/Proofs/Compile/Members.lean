import Mathlib.Data.List.Nodup
import SchemaScribe.Proofs.Compile.Built
import SchemaScribe.Proofs.Model.Literal
import SchemaScribe.Proofs.Text.Split

/-!
# What the file of an enumeration says

The file of an enumeration has one entry for each member, in order: the member between quotes, twice.
Read as the language reads it, the file says just this exactly when no member holds a quote, a
backslash or the end of a line (`enumerationFile_denotes`): members are put between the quotes as
they are, and one such member is enough for the file to say something else, or nothing
(`unescaped_member`).

The members can be told by the file all the same if none of them holds a line feed, since then each
entry is a line (`membersIn_enumerationText`).
-/

namespace SchemaScribe

open TypeScript (IsJoined IsPlain enumerationText memberLine units)
open TypeScript.Literal (inQuotes)
open Text (lineFeed)

namespace TypeScript

variable {body : Text} {entries : List (List Nat × List Nat)} {members : List Text}

/-- The entry of a member, with its indent. -/
def entryLine (m : Text) : Text := "  " ++ inQuotes m ++ " = " ++ inQuotes m ++ ","

/-- What stands behind the first line in the file of an enumeration. -/
def entriesText (members : List Text) : Text :=
  Text.withLineEnds (members.map entryLine) ++ "\x7d;"

theorem enumerationText_eq (name : Name) (members : List Text) :
    enumerationText "  " name (members.map .text) =
      "export enum " ++ name.toText ++ " \x7b\n" ++ entriesText members := by
  have hline : ∀ m : Text, Text.ofString "  " ++ memberLine (.text m) = entryLine m := by
    intro m
    simp only [memberLine, Json.toText, entryLine, inQuotes, List.append_assoc]
    rfl
  rw [enumerationText, entriesText, List.map_map]
  simp only [Function.comp_def, hline, List.append_assoc]

/-! ## Entries as the language reads them -/

/-- The text goes on with the entries, up to the end of the enumeration: each has a literal for its
key and one for its value, and these have the given strings. -/
inductive HasEntries : Text → List (List Nat × List Nat) → Prop
  | nil : HasEntries "\x7d;" []
  | cons {t u rest : Text} {key value : List Nat} {more : List (List Nat × List Nat)}
      (hkey : Literal.read .between t = some (key, " = '" ++ u))
      (hvalue : Literal.read .between u = some (value, ",\n" ++ rest))
      (hmore : HasEntries rest more) : HasEntries ("  '" ++ t) ((key, value) :: more)

/-- A text is read in one way. -/
theorem HasEntries.unique {entries' : List (List Nat × List Nat)} (h : HasEntries body entries)
    (h' : HasEntries body entries') : entries = entries' := by
  induction h generalizing entries' with
  | nil =>
    generalize hbody : Text.ofString "\x7d;" = body at h'
    cases h' with
    | nil => rfl
    | cons => cases hbody
  | cons hkey hvalue hmore ih =>
    generalize hbody : Text.ofString "  '" ++ _ = body at h'
    cases h' with
    | nil => cases hbody
    | cons hkey' hvalue' hmore' =>
      obtain rfl := List.append_cancel_left hbody
      obtain ⟨rfl, hu⟩ := Prod.mk.inj (Option.some.inj (hkey.symm.trans hkey'))
      obtain rfl := List.append_cancel_left hu
      obtain ⟨rfl, hrest⟩ := Prod.mk.inj (Option.some.inj (hvalue.symm.trans hvalue'))
      obtain rfl := List.append_cancel_left hrest
      rw [ih hmore']

/-- An entry and what stands behind it. -/
def entryThen (a b rest : Text) : Text :=
  Text.ofString "  '" ++ (a ++ .scalar '\'' :: (Text.ofString " = '" ++
    (b ++ .scalar '\'' :: (Text.ofString ",\n" ++ rest))))

theorem length_units_entryThen (a b rest : Text) : (units (entryThen a b rest)).length =
    (units a).length + (units b).length + 11 + (units rest).length := by
  have hindent : (units "  '").length = 3 := by decide
  have hequals : (units (.scalar '\'' :: " = '")).length = 5 := by decide
  have hend : (units (.scalar '\'' :: ",\n")).length = 3 := by decide
  rw [entryThen, ← List.cons_append, ← List.cons_append]
  simp only [units_append, List.length_append, hindent, hequals, hend]
  omega

/-- How many code units entries have at least that are written with these strings. -/
def written : List (List Nat × List Nat) → Nat
  | [] => 2
  | (key, value) :: more => key.length + value.length + 11 + written more

/-- **Reading loses length** unless all that is read is plain. -/
theorem HasEntries.written_le (h : HasEntries body entries) :
    written entries ≤ (units body).length ∧ (written entries = (units body).length →
      ∀ e ∈ entries, IsPlainString e.1 ∧ IsPlainString e.2) := by
  induction h with
  | nil => exact ⟨by decide, by simp⟩
  | @cons t u rest key value more hkey hvalue hmore ih =>
    obtain ⟨a, ht, hale, haplain⟩ := Literal.exists_body_of_read hkey
    obtain ⟨b, hu, hble, hbplain⟩ := Literal.exists_body_of_read hvalue
    have hlength := length_units_entryThen a b rest
    rw [entryThen, ← hu, ← ht] at hlength
    have hstate : Literal.slack .between = 0 := rfl
    obtain ⟨hle, hplain⟩ := ih
    rw [hlength, written]
    refine ⟨by omega, fun heq => List.forall_mem_cons.2 ⟨?_, hplain (by omega)⟩⟩
    obtain ⟨rfl, ha⟩ := haplain rfl (by omega)
    obtain ⟨rfl, hb⟩ := hbplain rfl (by omega)
    exact ⟨isPlainString_units_iff.2 ha, isPlainString_units_iff.2 hb⟩

theorem entriesText_cons (m : Text) (members : List Text) :
    entriesText (m :: members) = entryThen m m (entriesText members) := by
  rw [entriesText, List.map_cons, Text.withLineEnds, entryLine, inQuotes, entriesText, entryThen]
  simp only [List.append_assoc]
  rfl

/-- The strings of the entries of members that denote themselves. -/
def ownEntries (members : List Text) : List (List Nat × List Nat) :=
  members.map fun m => (units m, units m)

theorem length_units_entriesText (members : List Text) :
    (units (entriesText members)).length = written (ownEntries members) := by
  induction members with
  | nil => decide
  | cons m rest ih =>
    rw [entriesText_cons, length_units_entryThen, ownEntries, List.map_cons, written,
      ← ownEntries, ← ih]

/-- **What the entries say**: the members, exactly when these are plain. -/
theorem hasEntries_entriesText_iff :
    HasEntries (entriesText members) (ownEntries members) ↔ ∀ m ∈ members, IsPlain m := by
  constructor
  · intro h m hm
    have hplain := h.written_le.2 (length_units_entriesText members).symm
    exact isPlainString_units_iff.1 (hplain (units m, units m) (List.mem_map_of_mem hm)).1
  · intro h
    induction members with
    | nil => exact .nil
    | cons m rest ih =>
      obtain ⟨hm, hrest⟩ := List.forall_mem_cons.1 h
      rw [entriesText_cons]
      exact .cons (Literal.read_append_of_isPlain hm _) (Literal.read_append_of_isPlain hm _)
        (ih hrest)

/-! ## Members as lines -/

/-- The member of an entry. -/
def memberOf (line : Text) : Text := (line.drop 3).take ((line.length - 10) / 2)

/-- The members in the file of an enumeration, told by its lines: entries are the last lines with a
comma at their end. -/
def membersIn (content : Text) : List Text :=
  (((Text.split lineFeed content).reverse.drop 1).takeWhile
    (·.getLast? = some (.scalar ','))).reverse.map memberOf

theorem memberOf_entryLine (m : Text) : memberOf (entryLine m) = m := by
  have hline : entryLine m = "  '" ++ (m ++ ("' = '" ++ m ++ "',")) := by
    simp only [entryLine, inQuotes, List.append_assoc]
    rfl
  have hlength : (entryLine m).length = 2 * m.length + 10 := by
    have hstart : (Text.ofString "  '").length = 3 := rfl
    have hmiddle : (Text.ofString "' = '").length = 5 := rfl
    have hend : (Text.ofString "',").length = 2 := rfl
    simp only [hline, List.length_append, hstart, hmiddle, hend]
    omega
  have hhalf : (2 * m.length + 10 - 10) / 2 = m.length := by omega
  have hdrop : ∀ rest : Text, (Text.ofString "  '" ++ rest).drop 3 = rest := fun _ => rfl
  rw [memberOf, hlength, hhalf, hline, hdrop, List.take_left]

theorem lineFeed_not_mem_entryLine {m : Text} (h : lineFeed ∉ m) : lineFeed ∉ entryLine m := by
  simp only [entryLine, inQuotes, List.mem_append, not_or]
  exact ⟨⟨⟨⟨by decide, ⟨by decide, h⟩, by decide⟩, by decide⟩, ⟨by decide, h⟩, by decide⟩,
    by decide⟩

theorem getLast?_entryLine (m : Text) : (entryLine m).getLast? = some (.scalar ',') := by
  rw [entryLine, List.getLast?_append]
  rfl

/-- The lines of a file: those of the name, of which the last ends with a brace, the entries, and
the end. -/
theorem exists_split_enumerationText (name : Name) (h : ∀ m ∈ members, lineFeed ∉ m) :
    ∃ front last, Text.split lineFeed (enumerationText "  " name (members.map .text)) =
      front ++ [last ++ Text.ofString " \x7b"] ++
        (members.map entryLine ++ [Text.ofString "\x7d;"]) := by
  have hlines : ∀ line ∈ members.map entryLine, lineFeed ∉ line := by
    intro line hline
    obtain ⟨m, hm, rfl⟩ := List.mem_map.1 hline
    exact lineFeed_not_mem_entryLine (h m hm)
  obtain ⟨last, -, hlast⟩ : ∃ last, lineFeed ∉ last ∧
      Text.split lineFeed ("export enum " ++ name.toText ++ " \x7b") =
        (Text.split lineFeed ("export enum " ++ name.toText)).dropLast ++
          [last ++ Text.ofString " \x7b"] :=
    Text.exists_split_append _ (by decide)
  have hcontent : enumerationText "  " name (members.map .text) =
      ("export enum " ++ name.toText ++ " \x7b") ++
        lineFeed :: (Text.withLineEnds (members.map entryLine) ++ "\x7d;") := by
    rw [enumerationText_eq, entriesText]
    simp only [List.append_assoc]
    rfl
  have hend : Text.split lineFeed "\x7d;" = [Text.ofString "\x7d;"] := by decide
  exact ⟨_, last, by rw [hcontent, Text.split_append_cons, hlast,
    Text.split_withLineEnds_append hlines, hend]⟩

/-- **Members are told by the file**, whatever the name, if they hold no line feed. -/
theorem membersIn_enumerationText (name : Name) (h : ∀ m ∈ members, lineFeed ∉ m) :
    membersIn (enumerationText "  " name (members.map .text)) = members := by
  obtain ⟨front, last, hlines⟩ := exists_split_enumerationText name h
  have hentries : ∀ line ∈ (members.map entryLine).reverse,
      decide (line.getLast? = some (.scalar ',')) = true := by
    intro line hline
    obtain ⟨m, -, rfl⟩ := List.mem_map.1 (List.mem_reverse.1 hline)
    exact decide_eq_true (getLast?_entryLine m)
  have hbrace : (last ++ Text.ofString " \x7b").getLast? = some (.scalar '\x7b') := by
    rw [List.getLast?_append]
    rfl
  rw [membersIn, hlines, List.reverse_append, List.reverse_concat, List.cons_append, List.drop_one,
    List.tail_cons, List.takeWhile_append_of_pos hentries, List.reverse_concat,
    List.takeWhile_cons_of_neg (by rw [hbrace]; decide), List.append_nil, List.reverse_reverse,
    List.map_map]
  simp only [Function.comp_def, memberOf_entryLine, List.map_id']

/-- Different members have different keys. -/
theorem nodup_keys_ownEntries (hjoined : ∀ m ∈ members, IsJoined m) (h : members.Nodup) :
    ((ownEntries members).map Prod.fst).Nodup := by
  rw [ownEntries, List.map_map]
  refine List.Nodup.map_on (fun a ha b hb hab => ?_) h
  have hunits : units a = units b := hab
  rw [← joinPairs_units (hjoined a ha), hunits, joinPairs_units (hjoined b hb)]

end TypeScript

namespace Schema

open TypeScript (HasEntries Literal.value? entriesText membersIn ownEntries)

variable {options : Options} {e : Enumeration} {members : List Text} {path : Text}

/-- **What the file of an enumeration says.** With the indent of the default options it has one
entry for each member, in order, and in it the member between quotes, twice. Read as a literal this
is the member exactly when the member is plain, and the entries of the file are those of the members
exactly when all are. These have different keys if the members are different. By the lines of the
file the members can be told if none of them holds a line feed. -/
theorem enumerationFile_denotes (hindent : options.indent = .text "  ")
    (hmembers : e.members = .list (members.map .text))
    (hpath : options.fileName .enumeration e.name = .ok path) :
    ∃ content, enumerationFile options e = .ok ⟨path, content⟩ ∧
      content = "export enum " ++ e.name.toText ++ " \x7b\n" ++ entriesText members ∧
      (∀ m ∈ members, Literal.value? (inQuotes m) = some (units m) ↔ IsPlain m) ∧
      (HasEntries (entriesText members) (ownEntries members) ↔ ∀ m ∈ members, IsPlain m) ∧
      ((∀ m ∈ members, IsJoined m) → members.Nodup →
        ((ownEntries members).map Prod.fst).Nodup) ∧
      ((∀ m ∈ members, lineFeed ∉ m) → membersIn content = members) := by
  refine ⟨_, enumerationFile_eq_ok_iff.2 ⟨_, path, by rw [hmembers]; rfl, hpath, rfl⟩, ?_⟩
  rw [hindent]
  exact ⟨TypeScript.enumerationText_eq e.name members,
    fun m _ => TypeScript.Literal.value?_inQuotes_eq_some_iff,
    TypeScript.hasEntries_entriesText_iff, TypeScript.nodup_keys_ownEntries,
    TypeScript.membersIn_enumerationText e.name⟩

/-- An enumeration of the given name and members. -/
def enumerationOfMembers (name : String) (members : List Text) : Enumeration :=
  ⟨.text name, .list (members.map .text)⟩

/-- Members that look like parts of entries but are plain. -/
def plainRoles : List Text := ["ADMIN", "a \"b\" = ,"]

theorem enumerationFile_denotes_plainRoles :
    ∃ content, enumerationFile {} (enumerationOfMembers "Role" plainRoles) =
        .ok ⟨"ts-model/enum/Role.ts", content⟩ ∧
      HasEntries (entriesText plainRoles) (ownEntries plainRoles) ∧
      membersIn content = plainRoles := by
  have hindent : Options.indent {} = .text "  " := rfl
  have hmembers : (enumerationOfMembers "Role" plainRoles).members =
      .list (plainRoles.map .text) := rfl
  have hpath : Options.fileName {} .enumeration (enumerationOfMembers "Role" plainRoles).name =
      .ok "ts-model/enum/Role.ts" := by decide +kernel
  obtain ⟨content, hfile, -, -, hentries, -, htold⟩ :=
    enumerationFile_denotes hindent hmembers hpath
  exact ⟨content, hfile, hentries.2 (by decide +kernel), htold (by decide +kernel)⟩

/-- Members that are no plain texts: a quote ends the literal too early, a backslash is read as part
of an escape, and two rows of members can even have the same file. -/
theorem unescaped_member :
    (∃ content, enumerationFile {} (enumerationOfMembers "Role" ["it's"]) =
        .ok ⟨"ts-model/enum/Role.ts", content⟩) ∧
      Literal.value? (inQuotes "it's") = none ∧
      ¬ HasEntries (entriesText ["it's"]) (ownEntries ["it's"]) ∧
      Literal.value? (inQuotes "C:\\dir") = some (units "C:dir") ∧
      enumerationFile {} (enumerationOfMembers "Role" ["", "' = '", ""]) =
        enumerationFile {} (enumerationOfMembers "Role" ["' = '',\n  '' = '"]) := by
  refine ⟨⟨_, rfl⟩, ?_, ?_, ?_, ?_⟩
  · decide +kernel
  · rw [TypeScript.hasEntries_entriesText_iff]
    decide +kernel
  · decide +kernel
  · decide +kernel

end Schema

end SchemaScribe
