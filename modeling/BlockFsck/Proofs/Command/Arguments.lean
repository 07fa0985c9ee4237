import Mathlib.Data.List.Perm.Basic
import Mathlib.Data.Set.List
import BlockFsck.Command.Arguments

/-!
# The grammar of a command line

A command line is understood if and only if all its switches are known and go together and one
absolute path is left without them. What is understood is the path and the set of the switches, so
that their order and number do not matter (`Command.ofArguments_exact`).
-/

namespace BlockFsck

namespace Switch

/-- The argument that is read as the switch. -/
def text : Switch → String
  | .move => "-move"
  | .delete => "-delete"
  | .openForWrite => "-openforwrite"
  | .listCorrupt => "-list-corruptfiles"
  | .files => "-files"
  | .blocks => "-blocks"
  | .locations => "-locations"
  | .debug => "--debug"

private theorem ofText?_eq_some_iff {text : String} {switch : Switch} :
    ofText? text = some switch ↔ text = switch.text := by
  constructor
  · intro h
    unfold ofText? at h
    split at h <;> cases h <;> rfl
  · rintro rfl
    cases switch <;> rfl

private theorem text_injective : Function.Injective text := by
  intro a b h
  have ha : ofText? a.text = some a := ofText?_eq_some_iff.mpr rfl
  rw [h, ofText?_eq_some_iff.mpr rfl] at ha
  exact (Option.some.inj ha).symm

end Switch

namespace Command

/-- What is written like a switch, known or not. -/
def isSwitch (text : String) : Bool := text.toList.head? = some '-'

private theorem isSwitch_text (switch : Switch) : isSwitch switch.text = true := by
  cases switch <;> decide

/-- The switch is set. -/
def has (c : Command) : Switch → Bool
  | .move => c.move
  | .delete => c.delete
  | .openForWrite => c.openForWrite
  | .listCorrupt => c.listCorrupt
  | .files => c.files
  | .blocks => c.blocks
  | .locations => c.locations
  | .debug => c.debug

private theorem ext_has {c d : Command} (hpath : c.path = d.path)
    (h : ∀ switch, c.has switch = d.has switch) : c = d := by
  cases c
  cases d
  obtain rfl := hpath
  have hmove := h .move
  have hdelete := h .delete
  have hopen := h .openForWrite
  have hlist := h .listCorrupt
  have hfiles := h .files
  have hblocks := h .blocks
  have hlocations := h .locations
  have hdebug := h .debug
  simp only [has] at hmove hdelete hopen hlist hfiles hblocks hlocations hdebug
  subst hmove hdelete hopen hlist hfiles hblocks hlocations hdebug
  rfl

private theorem has_ofSwitches (path : String) (switches : List Switch) (switch : Switch) :
    (ofSwitches path switches).has switch = switches.contains switch := by
  cases switch <;> rfl

/-- The arguments that are no switches. -/
def paths (arguments : List String) : List String := arguments.filter (!isSwitch ·)

section Scan

variable {path found : Option String} {switches all : List Switch} {text : String}
  {arguments : List String}

private theorem scan_switch (h : isSwitch text = true) :
    scan path switches (text :: arguments) =
      match Switch.ofText? text with
      | some switch => scan path (switches ++ [switch]) arguments
      | none => .error (.unknownOption text) := by
  cases path <;> exact if_pos (of_decide_eq_true h)

private theorem scan_path (h : isSwitch text = false) :
    scan path switches (text :: arguments) =
      match path with
      | none => scan (some text) switches arguments
      | some first => .error (.secondPath first text) := by
  cases path <;> exact if_neg (of_decide_eq_false h)

/-- Scanning keeps apart what is written like a switch and what is not. It comes to its end if and
only if the former are known and the latter one at most. -/
theorem scan_eq_ok_iff :
    scan path switches arguments = .ok (found, all) ↔
      ∃ read : List Switch, arguments.filter isSwitch = read.map Switch.text ∧
        switches ++ read = all ∧ path.toList ++ paths arguments = found.toList := by
  induction arguments generalizing path switches with
  | nil =>
    have hsame : path.toList = found.toList ↔ path = found := by
      cases path <;> cases found <;> simp
    simp only [scan, paths, Except.ok.injEq, Prod.mk.injEq, List.filter_nil, List.append_nil,
      hsame]
    constructor
    · rintro ⟨rfl, rfl⟩
      exact ⟨[], rfl, List.append_nil _, rfl⟩
    · rintro ⟨read, hread, rfl, rfl⟩
      obtain rfl := List.map_eq_nil_iff.mp hread.symm
      exact ⟨rfl, (List.append_nil _).symm⟩
  | cons text arguments ih =>
    cases hswitch : isSwitch text with
    | true =>
      rw [scan_switch hswitch, paths, List.filter_cons_of_pos hswitch,
        List.filter_cons_of_neg (by simp [hswitch])]
      cases hknown : Switch.ofText? text with
      | none =>
        simp only [reduceCtorEq, false_iff]
        rintro ⟨read, hread, -⟩
        obtain ⟨switch, -, htext⟩ := List.mem_map.mp (hread ▸ List.mem_cons_self)
        rw [Switch.ofText?_eq_some_iff.mpr htext.symm] at hknown
        cases hknown
      | some switch =>
        obtain rfl := Switch.ofText?_eq_some_iff.mp hknown
        dsimp only
        rw [ih]
        constructor
        · rintro ⟨read, hread, rfl, hpath⟩
          exact ⟨switch :: read, by rw [hread, List.map_cons], by simp, hpath⟩
        · rintro ⟨read, hread, rfl, hpath⟩
          obtain ⟨first, rest, rfl, hfirst, hrest⟩ := List.map_eq_cons_iff.mp hread.symm
          obtain rfl := Switch.text_injective hfirst
          exact ⟨rest, hrest.symm, by simp, hpath⟩
    | false =>
      rw [scan_path hswitch, paths, List.filter_cons_of_neg (by simp [hswitch]),
        List.filter_cons_of_pos (by simp [hswitch])]
      cases path with
      | none => exact ih
      | some first =>
        simp only [reduceCtorEq, false_iff]
        rintro ⟨read, -, -, hpath⟩
        cases found <;> simp at hpath

end Scan

/-- The switches of a command go together. -/
structure IsCompatible (c : Command) : Prop where
  not_both : ¬ (c.move = true ∧ c.delete = true)
  blocks_files : c.blocks = true → c.files = true
  locations_blocks : c.locations = true → c.blocks = true

private theorem check_eq_ok_iff {c d : Command} :
    check c = .ok d ↔ c = d ∧ c.path.toList.head? = some '/' ∧ c.IsCompatible := by
  rw [check]
  split_ifs with hpath hboth hblocks hlocations
  all_goals simp only [Except.ok.injEq, false_iff]
  · exact fun h => hpath h.2.1
  · rintro ⟨-, -, hcompatible⟩
    exact hcompatible.not_both (by simpa using hboth)
  · rintro ⟨-, -, hcompatible⟩
    have := hcompatible.blocks_files
    simp_all
  · rintro ⟨-, -, hcompatible⟩
    have := hcompatible.locations_blocks
    simp_all
  · have hcompatible : c.IsCompatible := by
      constructor <;> simp_all
    exact ⟨fun h => ⟨h, not_not.mp hpath, hcompatible⟩, And.left⟩

/-- All switches are known and go together, and what is left is one absolute path. -/
structure Grammatical (arguments : List String) : Prop where
  known : ∀ text ∈ arguments, isSwitch text = true → ∃ switch : Switch, text = switch.text
  one_path : ∃ path, paths arguments = [path] ∧ path.toList.head? = some '/'
  not_both : ¬ (Switch.move.text ∈ arguments ∧ Switch.delete.text ∈ arguments)
  blocks_files : Switch.blocks.text ∈ arguments → Switch.files.text ∈ arguments
  locations_blocks : Switch.locations.text ∈ arguments → Switch.blocks.text ∈ arguments

/-- The command has the path of the arguments, and a switch is set if it is there at all. -/
structure Reads (arguments : List String) (c : Command) : Prop where
  path_eq : paths arguments = [c.path]
  has_iff : ∀ switch, c.has switch = true ↔ switch.text ∈ arguments

/-- The same paths in some order, and the same switches in any order and number. -/
structure Alike (arguments others : List String) : Prop where
  paths_perm : (paths arguments).Perm (paths others)
  mem_iff : ∀ text, isSwitch text = true → (text ∈ arguments ↔ text ∈ others)

variable {arguments others : List String} {c : Command}

private theorem Reads.isCompatible_iff (h : Reads arguments c) :
    c.IsCompatible ↔
      ¬ (Switch.move.text ∈ arguments ∧ Switch.delete.text ∈ arguments) ∧
        (Switch.blocks.text ∈ arguments → Switch.files.text ∈ arguments) ∧
        (Switch.locations.text ∈ arguments → Switch.blocks.text ∈ arguments) := by
  simp only [← h.has_iff]
  exact ⟨fun ⟨hboth, hblocks, hlocations⟩ => ⟨hboth, hblocks, hlocations⟩,
    fun ⟨hboth, hblocks, hlocations⟩ => ⟨hboth, hblocks, hlocations⟩⟩

private theorem reads_iff_of_read {read : List Switch}
    (hread : arguments.filter isSwitch = read.map Switch.text) :
    Reads arguments c ↔ paths arguments = [c.path] ∧ ofSwitches c.path read = c := by
  have hmem : ∀ switch : Switch, switch.text ∈ arguments ↔ read.contains switch = true := by
    intro switch
    have hfilter : switch.text ∈ arguments.filter isSwitch ↔ switch.text ∈ arguments := by
      simp [isSwitch_text]
    rw [← hfilter, hread, List.mem_map_of_injective Switch.text_injective, List.contains_iff_mem]
  constructor
  · intro h
    refine ⟨h.path_eq, ext_has rfl fun switch => ?_⟩
    rw [has_ofSwitches, Bool.eq_iff_iff, h.has_iff, hmem]
  · rintro ⟨hpath, heq⟩
    refine ⟨hpath, fun switch => ?_⟩
    rw [hmem, ← has_ofSwitches c.path, heq]

private theorem Grammatical.exists_read (h : Grammatical arguments) :
    ∃ read : List Switch, arguments.filter isSwitch = read.map Switch.text := by
  have hrange : arguments.filter isSwitch ∈ Set.range (List.map Switch.text) := by
    rw [Set.range_list_map]
    intro text hmem
    obtain ⟨hmem, hswitch⟩ := List.mem_filter.mp hmem
    obtain ⟨switch, rfl⟩ := h.known text hmem hswitch
    exact Set.mem_range_self switch
  obtain ⟨read, hread⟩ := hrange
  exact ⟨read, hread.symm⟩

private theorem Grammatical.exists_reads (h : Grammatical arguments) : ∃ c, Reads arguments c := by
  obtain ⟨read, hread⟩ := h.exists_read
  obtain ⟨path, hpath, -⟩ := h.one_path
  exact ⟨ofSwitches path read, (reads_iff_of_read hread).mpr ⟨hpath, rfl⟩⟩

private theorem ofArguments_eq_ok_iff :
    ofArguments arguments = .ok c ↔ Grammatical arguments ∧ Reads arguments c := by
  rw [ofArguments]
  constructor
  · intro h
    cases hscan : scan none [] arguments with
    | error cause =>
      rw [hscan] at h
      cases h
    | ok result =>
      obtain ⟨found, all⟩ := result
      obtain ⟨read, hread, rfl, hpath⟩ := scan_eq_ok_iff.mp hscan
      rw [hscan] at h
      cases found with
      | none => cases h
      | some path =>
        have hone : paths arguments = [path] := hpath
        obtain ⟨rfl, habsolute, hcompatible⟩ := check_eq_ok_iff.mp h
        have hreads : Reads arguments (ofSwitches path read) :=
          (reads_iff_of_read hread).mpr ⟨hone, rfl⟩
        obtain ⟨hboth, hblocks, hlocations⟩ := hreads.isCompatible_iff.mp hcompatible
        refine ⟨⟨fun text hmem hswitch => ?_, ⟨path, hone, habsolute⟩, hboth, hblocks,
          hlocations⟩, hreads⟩
        have hknown := List.mem_filter.mpr ⟨hmem, hswitch⟩
        rw [hread] at hknown
        obtain ⟨switch, -, htext⟩ := List.mem_map.mp hknown
        exact ⟨switch, htext.symm⟩
  · rintro ⟨hgrammatical, hreads⟩
    obtain ⟨read, hread⟩ := hgrammatical.exists_read
    obtain ⟨hpath, heq⟩ := (reads_iff_of_read hread).mp hreads
    have hscan : scan none [] arguments = .ok (some c.path, read) :=
      scan_eq_ok_iff.mpr ⟨read, hread, rfl, hpath⟩
    obtain ⟨path, hone, habsolute⟩ := hgrammatical.one_path
    obtain rfl : c.path = path := List.singleton_inj.mp (hpath.symm.trans hone)
    rw [hscan]
    change check (ofSwitches c.path read) = .ok c
    rw [heq]
    exact check_eq_ok_iff.mpr ⟨rfl, habsolute, hreads.isCompatible_iff.mpr
      ⟨hgrammatical.not_both, hgrammatical.blocks_files, hgrammatical.locations_blocks⟩⟩

private theorem Alike.symm (h : Alike arguments others) : Alike others arguments :=
  ⟨h.paths_perm.symm, fun text hswitch => (h.mem_iff text hswitch).symm⟩

private theorem Alike.mem_text_iff (h : Alike arguments others) (switch : Switch) :
    switch.text ∈ arguments ↔ switch.text ∈ others := h.mem_iff _ (isSwitch_text switch)

private theorem Alike.paths_eq (h : Alike arguments others) {path : String}
    (hpath : paths arguments = [path]) : paths others = [path] :=
  List.perm_singleton.mp (hpath ▸ h.paths_perm).symm

private theorem Alike.grammatical (h : Alike arguments others) (hg : Grammatical arguments) :
    Grammatical others where
  known text hmem hswitch := hg.known text ((h.mem_iff text hswitch).mpr hmem) hswitch
  one_path := hg.one_path.imp fun _ hpath => ⟨h.paths_eq hpath.1, hpath.2⟩
  not_both := by simpa only [← h.mem_text_iff] using hg.not_both
  blocks_files := by simpa only [← h.mem_text_iff] using hg.blocks_files
  locations_blocks := by simpa only [← h.mem_text_iff] using hg.locations_blocks

private theorem Alike.reads (h : Alike arguments others) (hr : Reads arguments c) :
    Reads others c where
  path_eq := h.paths_eq hr.path_eq
  has_iff switch := (hr.has_iff switch).trans (h.mem_text_iff switch)

private theorem Alike.ofArguments (h : Alike arguments others)
    (hok : ofArguments arguments = .ok c) : Command.ofArguments others = .ok c := by
  obtain ⟨hgrammatical, hreads⟩ := ofArguments_eq_ok_iff.mp hok
  exact ofArguments_eq_ok_iff.mpr ⟨h.grammatical hgrammatical, h.reads hreads⟩

/-- Exactly the command lines of the grammar are understood, each as the command it tells, and all
others end in an error. Neither depends on the order of the arguments or on how often a switch is
there. -/
theorem ofArguments_exact (arguments : List String) :
    ((∃ c, ofArguments arguments = .ok c) ↔ Grammatical arguments) ∧
      ((∃ cause, ofArguments arguments = .error cause) ↔ ¬ Grammatical arguments) ∧
      (∀ c, ofArguments arguments = .ok c → Reads arguments c) ∧
      ∀ others, Alike arguments others →
        ∀ c, ofArguments arguments = .ok c ↔ ofArguments others = .ok c := by
  have hok : (∃ c, ofArguments arguments = .ok c) ↔ Grammatical arguments := by
    constructor
    · rintro ⟨c, h⟩
      exact (ofArguments_eq_ok_iff.mp h).1
    · intro h
      obtain ⟨c, hreads⟩ := h.exists_reads
      exact ⟨c, ofArguments_eq_ok_iff.mpr ⟨h, hreads⟩⟩
  refine ⟨hok, ?_, fun c h => (ofArguments_eq_ok_iff.mp h).2,
    fun others halike c => ⟨halike.ofArguments, halike.symm.ofArguments⟩⟩
  rw [← hok]
  cases ofArguments arguments <;> simp

/-- A switch that is there twice and a path between the switches make no difference. -/
theorem ofArguments_exact_of_repeated :
    Alike ["-blocks", "/a", "-files", "-blocks"] ["/a", "-files", "-blocks"] ∧
      ofArguments ["-blocks", "/a", "-files", "-blocks"] =
        .ok { path := "/a", files := true, blocks := true } ∧
      Reads ["-blocks", "/a", "-files", "-blocks"]
        { path := "/a", files := true, blocks := true } := by
  have hok : ofArguments ["/a", "-files", "-blocks"] =
      .ok { path := "/a", files := true, blocks := true } := by decide
  have halike : Alike ["-blocks", "/a", "-files", "-blocks"] ["/a", "-files", "-blocks"] := by
    refine ⟨by decide, fun text _ => ?_⟩
    simp only [List.mem_cons, List.not_mem_nil, or_false]
    tauto
  obtain ⟨-, -, hreads, hothers⟩ := ofArguments_exact ["-blocks", "/a", "-files", "-blocks"]
  have hrepeated := (hothers _ halike _).mpr hok
  exact ⟨halike, hrepeated, hreads _ hrepeated⟩

end Command

end BlockFsck
