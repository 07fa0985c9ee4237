import Mathlib.Data.List.Lex
import Mathlib.Data.List.Sort
import Mathlib.Data.String.Basic
import Std.Data.String.ToNat
import BlockFsck.Entry

/-!
# Paths and their texts

A path read from a text has only names that can be written, and a written path is read back, so
that paths and normal texts correspond one to one.
-/

namespace BlockFsck.Path

/-- Every name can stand between two slashes. -/
def Valid (path : Path) : Prop := ∀ s ∈ path, IsSegment s

@[simp] theorem valid_nil : Valid [] := by simp [Valid]

theorem valid_append {path other : Path} : Valid (path ++ other) ↔ Valid path ∧ Valid other := by
  simp only [Valid, List.mem_append, or_imp, forall_and]

theorem valid_cons {name : String} {path : Path} :
    Valid (name :: path) ↔ IsSegment name ∧ Valid path := by
  simp [Valid]

theorem Valid.of_prefix {path other : Path} (h : Valid path) (hp : other <+: path) : Valid other :=
  fun s hs => h s (hp.subset hs)

theorem Valid.parent {path : Path} (h : Valid path) : Valid path.parent :=
  h.of_prefix (List.dropLast_prefix path)

private theorem not_mem_of_mem_pieces {separator : Char} {cs xs : List Char}
    (h : cs ∈ pieces separator xs) : separator ∉ cs := by
  induction xs generalizing cs with
  | nil => simp_all [pieces]
  | cons c xs ih =>
    by_cases hc : c = separator
    · rw [pieces, if_pos hc] at h
      rcases List.mem_cons.mp h with rfl | h
      · simp
      · exact ih h
    · rw [pieces, if_neg hc] at h
      cases hp : pieces separator xs with
      | nil =>
        rw [hp] at h
        simp only [List.mem_singleton] at h
        simpa [h] using Ne.symm hc
      | cons first others =>
        rw [hp] at h ih
        rcases List.mem_cons.mp h with rfl | h
        · have := ih (List.mem_cons_self ..)
          simp [this, Ne.symm hc]
        · exact ih (List.mem_cons_of_mem _ h)

theorem valid_of_ofText {text : String} {path : Path} (h : ofText text = .ok path) :
    Valid path := by
  unfold ofText at h
  split_ifs at h
  cases hf : (names text).find? isRelative with
  | some segment => simp [hf] at h
  | none =>
    simp only [hf, Except.ok.injEq] at h
    subst h
    intro s hs
    obtain ⟨cs, hcs, rfl⟩ := List.mem_map.mp hs
    obtain ⟨hmem, hne⟩ := List.mem_filter.mp hcs
    refine ⟨?_, ?_, ?_⟩
    · simpa [String.ofList_eq] using hne
    · simpa using not_mem_of_mem_pieces hmem
    · simpa using List.find?_eq_none.mp hf _ hs

theorem text_inj {path other : Path} (hp : Valid path) (ho : Valid other) :
    path.text = other.text ↔ path = other := by
  refine ⟨fun h => ?_, fun h => h ▸ rfl⟩
  have := ofText_text hp
  rw [h, ofText_text ho] at this
  exact (Except.ok.inj this).symm

theorem nodup_texts {paths : List Path} (h : paths.Nodup) (hv : ∀ path ∈ paths, Valid path) :
    (paths.map text).Nodup :=
  h.map_on fun path hmem other hother he => (text_inj (hv path hmem) (hv other hother)).mp he

theorem normalize_eq_ok {text normal : String} :
    normalize text = .ok normal ↔ ∃ path, ofText text = .ok path ∧ path.text = normal := by
  unfold normalize
  cases ofText text <;> simp [Except.map]

theorem normalize_text {path : Path} (h : Valid path) : normalize path.text = .ok path.text := by
  rw [normalize, ofText_text h]
  rfl

theorem ne_empty_of_ofText {text : String} {path : Path} (h : ofText text = .ok path) :
    text ≠ "" := by
  intro he
  rw [he] at h
  simp [ofText] at h

theorem mapM_ofText_eq_ok {given : Option String} {read : Option Path} :
    given.mapM ofText = .ok read ↔ given = none ∧ read = none ∨
      ∃ text path, given = some text ∧ read = some path ∧ ofText text = .ok path := by
  cases given with
  | none => simp [pure, Except.pure, eq_comm]
  | some text => cases ht : ofText text <;> simp [ht, Functor.map, Except.map, eq_comm]

theorem mapM_ofText_text {path? : Option Path} (h : ∀ path ∈ path?, Valid path) :
    (path?.map text).mapM ofText = .ok path? := by
  cases path? with
  | none => rfl
  | some path => exact mapM_ofText_eq_ok.mpr (.inr ⟨_, path, rfl, rfl, ofText_text (h path rfl)⟩)

theorem valid_of_mapM_ofText {given : Option String} {read : Option Path}
    (h : given.mapM ofText = .ok read) : ∀ path ∈ read, Valid path := by
  rcases mapM_ofText_eq_ok.mp h with ⟨-, rfl⟩ | ⟨text, path, -, rfl, hread⟩
  · simp
  · simpa using valid_of_ofText hread

theorem parentText_text {path : Path} (h : Valid path) :
    parentText path.text = .ok path.parent.text := by
  rw [parentText, ofText_text h]
  rfl

theorem isUnder_iff {path root : Path} : path.isUnder root = true ↔ root <+: path :=
  List.isPrefixOf_iff_prefix

theorem textIsUnder_of_ofText {text base : String} {path root : Path} (hp : ofText text = .ok path)
    (hr : ofText base = .ok root) : textIsUnder text base = .ok (path.isUnder root) := by
  rw [textIsUnder, hp, hr]
  rfl

theorem textIsUnder_text {path root : Path} (hp : Valid path) (hr : Valid root) :
    textIsUnder path.text root.text = .ok (path.isUnder root) :=
  textIsUnder_of_ofText (ofText_text hp) (ofText_text hr)

theorem parent_append_singleton (path : Path) (name : String) : parent (path ++ [name]) = path :=
  List.dropLast_concat

theorem eq_parent_append {path : Path} (h : path ≠ []) :
    ∃ name, path = path.parent ++ [name] :=
  ⟨path.getLast h, (List.dropLast_append_getLast h).symm⟩

theorem prefix_parent_iff {path above : Path} (hne : path ≠ []) (ha : above ≠ path) :
    above <+: path.parent ↔ above <+: path := by
  obtain ⟨name, hname⟩ := eq_parent_append hne
  refine ⟨fun h => h.trans (List.dropLast_prefix path), fun h => ?_⟩
  rw [hname] at h ha
  exact (List.prefix_concat_iff.mp h).resolve_left ha

/-- The order of a walk: name by name, names by code point, a directory before what it holds. -/
def Before (path other : Path) : Prop := List.Lex (· < ·) path other

theorem before_of_prefix {path other : Path} (h : path <+: other) (hne : path ≠ other) :
    Before path other := by
  obtain ⟨rest, rfl⟩ := h
  cases rest with
  | nil => exact absurd (List.append_nil path).symm hne
  | cons name rest =>
    have below : List.Lex (· < ·) [] (name :: rest) := List.Lex.nil
    simpa [Before] using List.Lex.append_left (· < ·) below path

theorem before_of_names {base rest others : Path} {name other : String} (h : name < other) :
    Before (base ++ name :: rest) (base ++ other :: others) :=
  List.Lex.append_left (· < ·) (List.Lex.rel h) base

theorem Before.irrefl (path : Path) : ¬ Before path path :=
  Std.Irrefl.irrefl (r := List.Lex (· < ·)) path

theorem Before.not_prefix {path other : Path} (h : Before path other) : ¬ other <+: path := by
  intro hp
  by_cases he : other = path
  · exact Before.irrefl path (he ▸ h)
  · have asymm : Std.Asymm Before :=
      inferInstanceAs (Std.Asymm (List.Lex (· < · : String → String → Prop)))
    have hbefore := before_of_prefix hp he
    exact asymm.asymm _ _ h hbefore

theorem nodup_of_before {paths : List Path} (h : paths.Pairwise Before) : paths.Nodup := by
  refine h.imp ?_
  rintro path _ hb rfl
  exact Before.irrefl path hb

/-- The order leaves one way to list paths. -/
theorem eq_of_before {paths others : List Path} (h : paths.Pairwise Before)
    (h' : others.Pairwise Before) (hmem : ∀ path, path ∈ paths ↔ path ∈ others) :
    paths = others := by
  have antisymm : Std.Antisymm Before :=
    inferInstanceAs (Std.Antisymm (List.Lex (· < · : String → String → Prop)))
  have irrefl : Std.Irrefl Before := ⟨Before.irrefl⟩
  exact h.eq_of_mem_iff h' hmem

theorem baseName_text {path : Path} {name : String} (h : Valid (path ++ [name])) :
    baseName (path ++ [name]).text = name := by
  obtain ⟨-, hname⟩ := valid_append.mp h
  have segment : IsSegment name := hname name (List.mem_singleton_self name)
  have toList : (path ++ [name]).text.toList
      = '/' :: List.intercalate ['/'] ((path ++ [name]).map String.toList) := by
    simp [Path.text, String.toList_append, String.toList_intercalate]
  have last : (pieces '/' (path ++ [name]).text.toList).getLast? = some name.toList := by
    rw [toList, pieces, if_pos rfl, pieces_names h (by simp), List.map_append,
      ← List.cons_append]
    exact List.getLast?_concat
  rw [baseName, last]
  cases hl : name.toList with
  | nil => exact absurd (String.toList_eq_nil_iff.mp hl) segment.1
  | cons c rest => simp [← hl]

private theorem intercalate_concat {parts : List (List Char)} (h : parts ≠ []) (last : List Char) :
    ['/'].intercalate (parts ++ [last]) = ['/'].intercalate parts ++ '/' :: last := by
  induction parts with
  | nil => exact absurd rfl h
  | cons part parts ih =>
    cases parts with
    | nil => simp
    | cons next parts =>
      rw [List.cons_append, List.cons_append, List.intercalate_cons_cons, ← List.cons_append,
        ih (by simp), List.intercalate_cons_cons]
      simp

theorem text_concat {path : Path} (h : path ≠ []) (name : String) :
    Path.text (path ++ [name]) = path.text ++ "/" ++ name := by
  have hparts : path.map String.toList ≠ [] := by simpa using h
  rw [← String.toList_inj]
  simp [Path.text, String.toList_append, String.toList_intercalate, intercalate_concat hparts]

theorem childText_text {path : Path} {name : String} (h : Valid (path ++ [name])) :
    childText path.text name = Path.text (path ++ [name]) := by
  by_cases hne : path = []
  · subst hne
    have hroot : Path.text [] = "/" := rfl
    rw [childText, if_pos hroot, List.nil_append]
    simp [Path.text]
  · have hroot : path.text ≠ "/" := fun he =>
      hne ((text_inj (valid_append.mp h).1 valid_nil).mp he)
    rw [childText, if_neg hroot, text_concat hne]

theorem isSegment_numbered {name : String} (h : IsSegment name) (number : Nat) :
    IsSegment s!"{name}.{number}" := by
  have toList : s!"{name}.{number}".toList = name.toList ++ '.' :: (Nat.repr number).toList := by
    simp [String.toList_append, toString]
  have digits : ∀ d ∈ (Nat.repr number).toList, d.isDigit = true := fun d hd => by
    rw [Nat.toList_repr] at hd
    exact Nat.isDigit_of_mem_toDigits (by decide) (by decide) hd
  have first : 0 < name.toList.length :=
    List.length_pos_iff.mpr fun hl => h.1 (String.toList_eq_nil_iff.mp hl)
  have last : 0 < (Nat.repr number).toList.length := by
    rw [Nat.toList_repr]
    exact Nat.length_toDigits_pos
  have long : 3 ≤ s!"{name}.{number}".toList.length := by
    rw [toList, List.length_append, List.length_cons]
    omega
  refine ⟨fun he => ?_, ?_, ?_⟩
  · rw [he] at long
    exact absurd long (by decide)
  · rw [toList, List.mem_append, List.mem_cons]
    rintro (hs | hs | hs)
    · exact h.2.1 hs
    · exact absurd hs (by decide)
    · exact absurd (digits _ hs) (by decide)
  · rw [isRelative, Bool.or_eq_false_iff, beq_eq_false_iff_ne, beq_eq_false_iff_ne]
    refine ⟨fun he => ?_, fun he => ?_⟩
    · rw [he] at long
      exact absurd long (by decide)
    · rw [he] at long
      exact absurd long (by decide)

end BlockFsck.Path
