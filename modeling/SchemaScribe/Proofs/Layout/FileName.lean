import SchemaScribe.Layout
import SchemaScribe.Proofs.Path.Words
import SchemaScribe.Proofs.Success

/-!
# Names and files

Below folders that are no absolute paths, the file of an item tells its name: `fileName_inj`. An
empty name stands for the folder itself, and an absolute one is a path of its own; all others are
put behind the folder.
-/

namespace SchemaScribe

namespace Layout

/-- The path of the folder of a kind: the output root and the folder below it. -/
def base (root folder : Text) : Text :=
  if root = [] then folder else if folder = [] then root else Path.join root folder

/-- The path of an item in a folder; the empty name stands for the folder. -/
def place (base name : Text) : Text := if name = [] then base else Path.join base name

theorem isAbsolute_base_eq (root folder : Text) :
    Path.isAbsolute (base root folder) = (Path.isAbsolute root || Path.isAbsolute folder) := by
  unfold base
  split
  · next hnil => rw [hnil, Path.isAbsolute_nil, Bool.false_or]
  · next hne =>
    split
    · next hnil => rw [hnil, Path.isAbsolute_nil, Bool.or_false]
    · cases hfolder : Path.isAbsolute folder with
      | true => rw [Path.join_of_isAbsolute _ hfolder, hfolder, Bool.or_true]
      | false =>
        rw [Path.join_of_not_isAbsolute _ hfolder, List.append_assoc, Path.isAbsolute_append hne,
          Bool.or_false]

theorem isAbsolute_base {root folder : Text} (hroot : Path.isAbsolute root = false)
    (hfolder : Path.isAbsolute folder = false) : Path.isAbsolute (base root folder) = false := by
  rw [isAbsolute_base_eq, hroot, hfolder, Bool.or_false]

/-- A place is an absolute path exactly when the name is one. -/
theorem isAbsolute_place {base name : Text} (h : Path.isAbsolute base = false) :
    Path.isAbsolute (place base name) = Path.isAbsolute name := by
  unfold place
  split
  · next hname => rw [hname, h, Path.isAbsolute_nil]
  · cases hname : Path.isAbsolute name with
    | true => rw [Path.join_of_isAbsolute _ hname, hname]
    | false =>
      rw [Path.join_of_not_isAbsolute _ hname, List.append_assoc]
      by_cases hbase : base = []
      · rw [hbase]
        simpa [Path.separator] using hname
      · rw [Path.isAbsolute_append hbase, h]

/-- The place of a name that is no absolute path, as the folder and something behind it. -/
theorem place_of_not_isAbsolute (base : Text) {name : Text}
    (h : Path.isAbsolute name = false) :
    place base name = base ++ if name = [] then [] else Path.separator base ++ name := by
  unfold place
  split
  · simp
  · rw [Path.join_of_not_isAbsolute _ h, List.append_assoc]

/-- Different names have different places. -/
theorem place_inj {base a b : Text} (h : Path.isAbsolute base = false)
    (hab : place base a = place base b) : a = b := by
  have hiff : Path.isAbsolute a = Path.isAbsolute b := by
    rw [← isAbsolute_place h, hab, isAbsolute_place h]
  cases ha : Path.isAbsolute a with
  | true =>
    have hne : ∀ {t}, Path.isAbsolute t = true → place base t = t := by
      intro t ht
      have : t ≠ [] := by
        rintro rfl
        simp at ht
      rw [place, if_neg this, Path.join_of_isAbsolute _ ht]
    rwa [hne ha, hne (hiff ▸ ha)] at hab
  | false =>
    rw [place_of_not_isAbsolute _ ha, place_of_not_isAbsolute _ (hiff ▸ ha)] at hab
    have htail := List.append_cancel_left hab
    split at htail
    · next hnil =>
      split at htail
      · next hnil' => rw [hnil, hnil']
      · next hb => exact absurd (List.append_eq_nil_iff.1 htail.symm).2 hb
    · next hne =>
      split at htail
      · exact absurd (List.append_eq_nil_iff.1 htail).2 hne
      · exact List.append_cancel_left htail

theorem filter_isTruthy_cons (t : Text) (parts : List Json) :
    (Json.text t :: parts).filter Json.isTruthy =
      if t = [] then parts.filter Json.isTruthy
      else .text t :: parts.filter Json.isTruthy := by
  cases t with
  | nil => rfl
  | cons x rest => rfl

end Layout

namespace Options

/-- The output root and the folders of the kinds are texts, and none is an absolute path. -/
structure HasRelativeFolders (options : Options) : Prop where
  root : ∃ root, options.outputRoot = .text root ∧ Path.isAbsolute root = false
  folder : ∀ kind, ∃ folder, options.folder kind = .text folder ∧ Path.isAbsolute folder = false

/-- All parts that make the path of an item's file are texts, and the output root is not empty. -/
structure HasTextLayout (options : Options) : Prop where
  root : ∃ root, options.outputRoot = .text root ∧ root ≠ []
  folder : ∀ kind, ∃ folder, options.folder kind = .text folder
  extension : ∃ extension, options.fileExtension = .text extension

theorem hasTextLayout_default : HasTextLayout {} where
  root := ⟨_, rfl, by decide⟩
  folder kind := by cases kind <;> exact ⟨_, rfl⟩
  extension := ⟨_, rfl⟩

/-- The path of the module of an item, if the folders are texts. -/
theorem modulePath_text {options : Options} {kind : ItemKind} {root folder : Text}
    (hroot : options.outputRoot = .text root) (hfolder : options.folder kind = .text folder)
    (name : Text) : options.modulePath kind (.text name) =
      if Layout.base root folder = [] ∧ name = [] then .error .noParts
      else .ok (Layout.place (Layout.base root folder) name) := by
  have hempty : Path.join [] name = name := by simp [Path.join]
  rw [modulePath, hroot, hfolder, Layout.base]
  by_cases h₁ : root = [] <;> by_cases h₂ : folder = [] <;> by_cases h₃ : name = [] <;>
    simp only [h₁, h₂, h₃, Layout.filter_isTruthy_cons, List.filter_nil, if_true, if_false,
      Layout.joinParts, Layout.joinOnto, Layout.place, and_self, and_true, and_false, hempty,
      Path.join_ne_nil, ne_eq, not_false_eq_true]

/-- The path of a file is that of the module and the extension. -/
theorem fileName_eq_ok_iff {options : Options} {kind : ItemKind} {name : Name} {file : Text} :
    options.fileName kind name = .ok file ↔ ∃ path extension,
      options.modulePath kind name = .ok path ∧ options.fileExtension = .text extension ∧
      file = path ++ extension := by
  rw [fileName, bind_eq_ok_iff]
  constructor
  · rintro ⟨path, hpath, h⟩
    split at h
    · next extension hextension =>
      exact ⟨path, extension, hpath, hextension, (pure_eq_ok_iff.1 h).symm⟩
    · simp at h
  · rintro ⟨path, extension, hpath, hextension, rfl⟩
    refine ⟨path, hpath, ?_⟩
    rw [hextension]
    rfl

/-- Below an output root that is not empty, every item that has a text for a name has a file. -/
theorem HasTextLayout.exists_fileName {options : Options} (h : options.HasTextLayout)
    (kind : ItemKind) (name : Text) :
    ∃ path file, options.modulePath kind (.text name) = .ok path ∧
      options.fileName kind (.text name) = .ok file := by
  obtain ⟨root, hroot, hne⟩ := h.root
  obtain ⟨folder, hfolder⟩ := h.folder kind
  obtain ⟨extension, hextension⟩ := h.extension
  have hbase : Layout.base root folder ≠ [] := by
    unfold Layout.base
    split
    · next hnil => exact absurd hnil hne
    · split
      · exact hne
      · exact Path.join_ne_nil hne _
  have hpath := modulePath_text hroot hfolder name
  rw [if_neg (by simp [hbase])] at hpath
  exact ⟨_, _, hpath, fileName_eq_ok_iff.2 ⟨_, extension, hpath, hextension, rfl⟩⟩

/-- **The file of an item tells its name**, below folders that are no absolute paths. -/
theorem fileName_inj {options : Options} (h : options.HasRelativeFolders) {kind : ItemKind}
    {a b path : Text} (ha : options.fileName kind (.text a) = .ok path)
    (hb : options.fileName kind (.text b) = .ok path) : a = b := by
  obtain ⟨root, hroot, habs⟩ := h.root
  obtain ⟨folder, hfolder, habs'⟩ := h.folder kind
  have hplace : ∀ {name}, options.fileName kind (.text name) = .ok path →
      ∃ extension, options.fileExtension = .text extension ∧
        Layout.place (Layout.base root folder) name ++ extension = path := by
    intro name hname
    obtain ⟨place, extension, hpath, he, hfile⟩ := fileName_eq_ok_iff.1 hname
    rw [modulePath_text hroot hfolder] at hpath
    split at hpath
    · simp at hpath
    · obtain rfl := Except.ok.inj hpath
      exact ⟨extension, he, hfile.symm⟩
  obtain ⟨e, he, hpa⟩ := hplace ha
  obtain ⟨e', he', hpb⟩ := hplace hb
  obtain rfl := Json.text.inj (he.symm.trans he')
  exact Layout.place_inj (Layout.isAbsolute_base habs habs')
    (List.append_cancel_right (hpa.trans hpb.symm))

end Options

end SchemaScribe
