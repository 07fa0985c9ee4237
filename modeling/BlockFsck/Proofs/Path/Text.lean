import Mathlib.Data.List.Induction
import BlockFsck.Proofs.Path

/-!
# Laws of path texts

The texts that can be read are told by their parts, and each has one normal form, which is the text
of the path that it is read as. Whether one path lies under another can be seen from the normal
texts alone: one starts with the other, and a slash follows there.
-/

namespace BlockFsck.Path

variable {text base normal above : String} {path root : Path} {name : String}

private theorem pieces_eq_splitOn (separator : Char) (cs : List Char) :
    pieces separator cs = cs.splitOn separator := by
  rw [List.splitOn_eq_splitOnP]
  induction cs with
  | nil => rfl
  | cons c cs ih =>
    rw [pieces, List.splitOnP_cons_eq_if_modifyHead, ih]
    by_cases hc : c = separator
    · simp [hc]
    · cases hsplit : cs.splitOnP (· == separator) with
      | nil => exact absurd hsplit (List.splitOnP_ne_nil _ cs)
      | cons first others => simp [hc]

private theorem names_slash (cs rest : List Char) :
    names (String.ofList (cs ++ '/' :: rest)) =
      names (String.ofList cs) ++ names (String.ofList rest) := by
  have hsplit : pieces '/' (cs ++ '/' :: rest) = pieces '/' cs ++ pieces '/' rest := by
    simp only [pieces_eq_splitOn, List.splitOn_eq_splitOnP]
    exact List.splitOnP_append_cons cs rest (by simp)
  simp only [names, String.toList_ofList, hsplit, List.filter_append, List.map_append]

/-- It starts with a slash, and no part between slashes is relative. -/
def IsReadable (text : String) : Prop :=
  text.toList.head? = some '/' ∧
    ∀ part ∈ text.toList.splitOn '/', part ≠ ['.'] ∧ part ≠ ['.', '.']

private theorem isRelative_ofList (part : List Char) :
    isRelative (String.ofList part) = true ↔ part = ['.'] ∨ part = ['.', '.'] := by
  rw [isRelative, Bool.or_eq_true, beq_iff_eq, beq_iff_eq, ← String.toList_inj,
    ← String.toList_inj, String.toList_ofList]
  rfl

private theorem find?_isRelative_names :
    (names text).find? isRelative = none ↔
      ∀ part ∈ text.toList.splitOn '/', part ≠ ['.'] ∧ part ≠ ['.', '.'] := by
  rw [names, pieces_eq_splitOn, List.find?_map, Option.map_eq_none_iff, List.find?_eq_none]
  refine forall_congr' fun part => ?_
  simp only [List.mem_filter, Function.comp_apply, isRelative_ofList, not_or]
  constructor
  · intro h hmem
    by_cases hempty : part = []
    · simp [hempty]
    · exact h ⟨hmem, by simpa using hempty⟩
  · exact fun h hmem => h hmem.1

private theorem ofText_eq_ok_iff :
    ofText text = .ok path ↔ IsReadable text ∧ names text = path := by
  rw [ofText, IsReadable, ← find?_isRelative_names]
  split_ifs with hslash
  · dsimp only
    cases (names text).find? isRelative <;> simp [hslash]
  · simp [hslash]

private theorem exists_ofText_iff : (∃ path, ofText text = .ok path) ↔ IsReadable text := by
  simp only [ofText_eq_ok_iff, exists_and_left, exists_eq', and_true]

private theorem normalize_of_ofText (h : ofText text = .ok path) : normalize text = .ok path.text :=
  normalize_eq_ok.mpr ⟨path, h, rfl⟩

private theorem normalize_normal (h : normalize text = .ok normal) :
    normalize normal = .ok normal ∧ ofText normal = ofText text := by
  obtain ⟨path, hread, rfl⟩ := normalize_eq_ok.mp h
  have hvalid := valid_of_ofText hread
  exact ⟨normalize_text hvalid, (ofText_text hvalid).trans hread.symm⟩

private theorem normal_eq_iff {other : String} (hp : ofText text = .ok path)
    (hr : ofText base = .ok root)
    (h : normalize text = .ok normal) (h' : normalize base = .ok other) :
    normal = other ↔ path = root := by
  obtain rfl := Except.ok.inj ((normalize_of_ofText hp).symm.trans h)
  obtain rfl := Except.ok.inj ((normalize_of_ofText hr).symm.trans h')
  exact text_inj (valid_of_ofText hp) (valid_of_ofText hr)

private theorem toList_prefix_append (front back : String) : front.toList <+:
    (front ++ back).toList := by
  rw [String.toList_append]
  exact List.prefix_append _ _

private theorem slash_prefix_text (h : root ≠ []) {rest : Path} (hrest : rest ≠ []) :
    (root.text ++ "/").toList <+: (Path.text (root ++ rest)).toList := by
  induction rest using List.reverseRecOn with
  | nil => exact absurd rfl hrest
  | append_singleton rest name ih =>
    have hlong : root ++ rest ≠ [] := by simp [h]
    rw [← List.append_assoc, text_concat hlong]
    by_cases hnil : rest = []
    · rw [hnil, List.append_nil]
      exact toList_prefix_append _ _
    · have hslash := toList_prefix_append (Path.text (root ++ rest)) "/"
      exact ((ih hnil).trans hslash).trans (toList_prefix_append _ _)

private theorem prefix_of_slash_prefix (hp : Valid path) (hr : Valid root)
    (h : (root.text ++ "/").toList <+: path.text.toList) : root <+: path := by
  obtain ⟨rest, hrest⟩ := h
  have htext : path.text = String.ofList (root.text.toList ++ '/' :: rest) := by
    rw [← String.toList_inj, ← hrest, String.toList_ofList, String.toList_append]
    simp
  have hnames : path = root ++ names (String.ofList rest) := by
    calc path = names path.text := (names_text hp).symm
      _ = names root.text ++ names (String.ofList rest) := by
          rw [htext, names_slash, String.ofList_toList]
      _ = root ++ names (String.ofList rest) := by rw [names_text hr]
  exact ⟨_, hnames.symm⟩

/-- One path lies under another if their texts are the same, or one goes on with a slash where the
other ends. Under the root lies all. -/
theorem isUnder_iff_text (hp : Valid path) (hr : Valid root) :
    path.isUnder root = true ↔ root.text = "/" ∨ path.text = root.text ∨
      (root.text ++ "/").toList <+: path.text.toList := by
  have hroot : root.text = "/" ↔ root = [] := text_inj hr valid_nil
  rw [isUnder_iff, hroot, text_inj hp hr]
  constructor
  · rintro ⟨rest, rfl⟩
    by_cases hnil : root = []
    · exact .inl hnil
    · by_cases hrest : rest = []
      · exact .inr (.inl (by simp [hrest]))
      · exact .inr (.inr (slash_prefix_text hnil hrest))
  · rintro (rfl | rfl | h)
    · exact List.nil_prefix
    · exact List.prefix_refl _
    · exact prefix_of_slash_prefix hp hr h

private theorem textIsUnder_eq_ok {b : Bool} : textIsUnder text base = .ok b ↔
    ∃ path root, ofText text = .ok path ∧ ofText base = .ok root ∧ path.isUnder root = b := by
  cases hp : ofText text with
  | error e => simp [textIsUnder, hp, bind, Except.bind]
  | ok path =>
    cases hr : ofText base with
    | error e => simp [textIsUnder, hp, hr, bind, Except.bind]
    | ok root => simp [textIsUnder_of_ofText hp hr]

private theorem textIsUnder_refl (h : IsReadable text) : textIsUnder text text = .ok true := by
  obtain ⟨path, hread⟩ := exists_ofText_iff.mpr h
  exact textIsUnder_eq_ok.mpr ⟨path, path, hread, hread, isUnder_iff.mpr (List.prefix_refl _)⟩

private theorem textIsUnder_trans (h : textIsUnder text base = .ok true)
    (h' : textIsUnder base above = .ok true) : textIsUnder text above = .ok true := by
  obtain ⟨path, root, hpath, hroot, hunder⟩ := textIsUnder_eq_ok.mp h
  obtain ⟨between, top, hbetween, htop, hunder'⟩ := textIsUnder_eq_ok.mp h'
  obtain rfl := Except.ok.inj (hroot.symm.trans hbetween)
  have hprefix := (isUnder_iff.mp hunder').trans (isUnder_iff.mp hunder)
  exact textIsUnder_eq_ok.mpr ⟨path, top, hpath, htop, isUnder_iff.mpr hprefix⟩

private theorem textIsUnder_antisymm (hp : normalize text = .ok text)
    (hr : normalize base = .ok base)
    (h : textIsUnder text base = .ok true) (h' : textIsUnder base text = .ok true) :
    text = base := by
  obtain ⟨path, root, hpath, hroot, hunder⟩ := textIsUnder_eq_ok.mp h
  rw [textIsUnder_of_ofText hroot hpath, Except.ok.injEq] at h'
  rw [normal_eq_iff hpath hroot hp hr]
  exact ((isUnder_iff.mp h').eq_of_length_le (isUnder_iff.mp hunder).length_le)

private theorem textIsUnder_of_normal {other : String} (h : normalize text = .ok normal)
    (h' : normalize base = .ok other) :
    textIsUnder text base = .ok
      (decide (other = "/" ∨ normal = other ∨ (other ++ "/").toList <+: normal.toList)) := by
  obtain ⟨path, hpath, rfl⟩ := normalize_eq_ok.mp h
  obtain ⟨root, hroot, rfl⟩ := normalize_eq_ok.mp h'
  rw [textIsUnder_of_ofText hpath hroot, Except.ok.injEq, Bool.eq_iff_iff, decide_eq_true_iff]
  exact isUnder_iff_text (valid_of_ofText hpath) (valid_of_ofText hroot)

private theorem child_of_normal (h : normalize text = .ok normal) (hname : IsSegment name) :
    parentText (childText normal name) = .ok normal ∧
      ∀ kind, (Entry.mk (childText normal name) kind).name = name := by
  obtain ⟨path, hread, rfl⟩ := normalize_eq_ok.mp h
  have hvalid : Valid (path ++ [name]) :=
    valid_append.mpr ⟨valid_of_ofText hread, by simpa [Valid] using hname⟩
  rw [childText_text hvalid, parentText_text hvalid, parent_append_singleton]
  exact ⟨rfl, fun _ => baseName_text hvalid⟩

/-- Paths and their texts correspond one to one. A text can be read if and only if it starts with a
slash and none of its parts is relative, a path is read back from its text, and a text has a normal
text that is normal itself and is read as the same path. Lying under is told by the normal texts,
whichever texts are asked about, and is an order on normal texts. The child of a directory has that
directory as its parent and goes by the name it was given. -/
theorem texts_correspond :
    (∀ text, (∃ path, ofText text = .ok path) ↔ IsReadable text) ∧
    (∀ path : Path, Valid path → ofText path.text = .ok path) ∧
    (∀ text, IsReadable text → ∃ normal, normalize text = .ok normal ∧
      normalize normal = .ok normal ∧ ofText normal = ofText text) ∧
    (∀ text base normal other, normalize text = .ok normal → normalize base = .ok other →
      textIsUnder text base = .ok
        (decide (other = "/" ∨ normal = other ∨ (other ++ "/").toList <+: normal.toList))) ∧
    (∀ text, IsReadable text → textIsUnder text text = .ok true) ∧
    (∀ text base above, textIsUnder text base = .ok true → textIsUnder base above = .ok true →
      textIsUnder text above = .ok true) ∧
    (∀ text base, normalize text = .ok text → normalize base = .ok base →
      textIsUnder text base = .ok true → textIsUnder base text = .ok true → text = base) ∧
    (∀ text normal name, normalize text = .ok normal → IsSegment name →
      parentText (childText normal name) = .ok normal ∧
        ∀ kind, (Entry.mk (childText normal name) kind).name = name) := by
  refine ⟨fun _ => exists_ofText_iff, fun _ => ofText_text, fun text h => ?_,
    fun _ _ _ _ => textIsUnder_of_normal, fun _ => textIsUnder_refl,
    fun _ _ _ => textIsUnder_trans, fun _ _ => textIsUnder_antisymm, fun _ _ _ => child_of_normal⟩
  obtain ⟨path, hread⟩ := exists_ofText_iff.mpr h
  have hnormal := normalize_of_ofText hread
  exact ⟨path.text, hnormal, normalize_normal hnormal⟩

/-- Slashes too many make no difference, and a name that starts like another is not under it. -/
theorem texts_correspond_of_sharedStart :
    normalize "//audio//book/" = .ok "/audio/book" ∧ normalize "/audio/" = .ok "/audio" ∧
      textIsUnder "//audio//book/" "/audio/" = .ok true ∧
      textIsUnder "/audiobook" "/audio/" = .ok false ∧
      parentText (childText "/audio/book" "a.1") = .ok "/audio/book" ∧
      (Entry.mk (childText "/audio/book" "a.1") .file).name = "a.1" := by
  have hbook : normalize "//audio//book/" = .ok "/audio/book" := by decide +kernel
  have haudio : normalize "/audio/" = .ok "/audio" := by decide +kernel
  have hother : normalize "/audiobook" = .ok "/audiobook" := by decide +kernel
  have hname : IsSegment "a.1" := by
    refine ⟨by decide, by decide, by decide⟩
  obtain ⟨-, -, -, hunder, -, -, -, hchild⟩ := texts_correspond
  obtain ⟨hparent, hbase⟩ := hchild _ _ "a.1" hbook hname
  refine ⟨hbook, haudio, ?_, ?_, hparent, hbase .file⟩
  · exact hunder _ _ _ _ hbook haudio
  · exact hunder _ _ _ _ hother haudio

end BlockFsck.Path
