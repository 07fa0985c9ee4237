import BlockFsck.Proofs.Service
import BlockFsck.Quarantine

/-!
# Where a file goes

A file goes to its own path below the quarantine directory, or to that path with a numbered ending at
the first name that something is in the way of. Whatever a lookup knows, as long as that is a tree, the
destination is the first of these candidates that can be made, if there is one
(`destination_first_free`).

The search stops at the first name that is not there. That this leaves nothing out is where the tree
comes in: below what is not there is nothing.
-/

namespace BlockFsck.Quarantine

open Metadata (onNamespace)

variable {σ τ : Type} {lookup : String → Option Entry} {base directory path : Path}
  {names : List String} {position : Nat}

/-- What the lookup knows is a tree: all that lies above an entry is there as a directory. -/
def OfTree (lookup : String → Option Entry) : Prop :=
  ∀ {path above : Path}, path.Valid → above <+: path → above ≠ path → lookup path.text ≠ none →
    ∃ entry, lookup above.text = some entry ∧ entry.isDirectory = true

/-- The service finds what the lookup knows. -/
def LooksUp (service : Metadata.Service (StateM τ)) (Within : τ → Prop)
    (lookup : String → Option Entry) : Prop :=
  ∀ {path : Path}, path.Valid → service.Replies Within (.resolve path.text) (lookup path.text)

/-- What the namespace knows of the text of a path. -/
def entryIn (ns : Namespace) (text : String) : Option Entry :=
  (Path.ofText text).toOption.bind fun path =>
    (ns.node? path).map fun node => ⟨path.text, node.kind⟩

theorem entryIn_text {ns : Namespace} {path : Path} (hv : path.Valid) :
    entryIn ns path.text = (ns.node? path).map fun node => ⟨path.text, node.kind⟩ := by
  rw [entryIn, Path.ofText_text hv]
  rfl

theorem ofTree_entryIn (ns : Namespace) : OfTree (entryIn ns) := by
  intro path above hv hup hne hsome
  rw [entryIn_text hv] at hsome
  rw [entryIn_text (hv.of_prefix hup)]
  cases hn : ns.node? path with
  | none => simp [hn] at hsome
  | some node => simp [Namespace.directory_above hn hup hne, Entry.isDirectory, Node.kind]

theorem looksUp_entryIn (ns : Namespace) : LooksUp onNamespace (· = ns) (entryIn ns) := by
  intro path hv
  rw [entryIn_text hv]
  exact (Metadata.servesFiles_onNamespace ns).resolve (Path.ofText_text hv)

/-- The names can be made below the base: there is nothing at the last of them, and no file at those
before it. -/
structure Creatable (lookup : String → Option Entry) (base : Path) (names : List String) :
    Prop where
  absent : lookup (Path.text (base ++ names)) = none
  no_file_above : ∀ {above}, above <+: names → above ≠ [] → above ≠ names → ∀ entry,
    lookup (Path.text (base ++ above)) = some entry → entry.isDirectory = true

/-- At the name stands something that keeps the names from being made: anything at the last of them,
what is no directory at one before it. -/
def InTheWay (lookup : String → Option Entry) (base : Path) (names : List String)
    (position : Nat) : Prop :=
  position < names.length ∧ ∃ entry,
    lookup (Path.text (base ++ names.take (position + 1))) = some entry ∧
      (position + 1 = names.length ∨ entry.isDirectory = false)

/-- The name is the first one with something in the way. -/
def IsFirstConflict (lookup : String → Option Entry) (base : Path) (names : List String)
    (position : Nat) : Prop :=
  InTheWay lookup base names position ∧
    ∀ earlier < position, ¬ InTheWay lookup base names earlier

private theorem IsFirstConflict.unique {other : Nat}
    (h : IsFirstConflict lookup base names position)
    (h' : IsFirstConflict lookup base names other) : position = other := by
  rcases Nat.lt_trichotomy position other with hlt | heq | hgt
  · exact absurd h.1 (h'.2 position hlt)
  · exact heq
  · exact absurd h'.1 (h.2 other hgt)

private theorem exists_firstConflict (h : InTheWay lookup base names position) :
    ∃ first, IsFirstConflict lookup base names first := by
  classical
  have hsome : ∃ position, InTheWay lookup base names position := ⟨position, h⟩
  exact ⟨Nat.find hsome, Nat.find_spec hsome, fun _ hlt => Nat.find_min hsome hlt⟩

private theorem creatable_iff (hne : names ≠ []) :
    Creatable lookup base names ↔ ∀ position, ¬ InTheWay lookup base names position := by
  constructor
  · intro h position hway
    obtain ⟨hlt, entry, hentry, hlast⟩ := hway
    by_cases he : position + 1 = names.length
    · rw [he, List.take_length, h.absent] at hentry
      cases hentry
    · have hfile : entry.isDirectory = false := hlast.resolve_left he
      have hlength : (names.take (position + 1)).length = position + 1 := by
        rw [List.length_take]
        omega
      have hdirectory := h.no_file_above (List.take_prefix (position + 1) names)
        (fun hnil => by simp [hnil] at hlength) (fun hall => he (by rw [← hlength, hall]))
        entry hentry
      rw [hfile] at hdirectory
      cases hdirectory
  · intro h
    have hpos := List.length_pos_iff.mpr hne
    constructor
    · cases hn : lookup (Path.text (base ++ names)) with
      | none => rfl
      | some entry =>
        refine absurd ⟨by omega, entry, ?_, .inl (Nat.sub_add_cancel hpos)⟩ (h (names.length - 1))
        rw [Nat.sub_add_cancel hpos, List.take_length, hn]
    · intro above hprefix hnonempty hproper entry hentry
      have hlong := List.length_pos_iff.mpr hnonempty
      have hshort : above.length ≤ names.length := hprefix.length_le
      by_contra hfile
      refine h (above.length - 1) ⟨by omega, entry, ?_, .inr (by simpa using hfile)⟩
      rw [Nat.sub_add_cancel hlong, ← List.prefix_iff_eq_take.mp hprefix, hentry]

private theorem inTheWay_append (above below : List String) (position : Nat) :
    InTheWay lookup base (above ++ below) (above.length + position) ↔
      InTheWay lookup (base ++ above) below position := by
  have htake : base ++ (above ++ below).take (above.length + position + 1) =
      base ++ above ++ below.take (position + 1) := by
    rw [Nat.add_assoc, List.take_length_add_append, List.append_assoc]
  rw [InTheWay, InTheWay, htake, List.length_append, Nat.add_assoc, Nat.add_left_cancel_iff,
    Nat.add_lt_add_iff_left]

private theorem isFirstConflict_cons_succ {name : String} {rest : List String}
    (h : ¬ InTheWay lookup base (name :: rest) 0) :
    IsFirstConflict lookup base (name :: rest) (position + 1) ↔
      IsFirstConflict lookup (base ++ [name]) rest position := by
  have hshift : ∀ position, InTheWay lookup base (name :: rest) (position + 1) ↔
      InTheWay lookup (base ++ [name]) rest position := by
    intro position
    rw [Nat.add_comm]
    exact inTheWay_append [name] rest position
  rw [IsFirstConflict, IsFirstConflict, hshift]
  refine and_congr_right fun _ => ?_
  constructor
  · intro hnone earlier hlt
    rw [← hshift]
    exact hnone _ (Nat.succ_lt_succ hlt)
  · intro hnone earlier hlt
    cases earlier with
    | zero => exact h
    | succ earlier =>
      rw [hshift]
      exact hnone _ (Nat.lt_of_succ_lt_succ hlt)

private theorem not_inTheWay_of_absent (htree : OfTree lookup) {name : String} {rest : List String}
    (hv : Path.Valid (base ++ name :: rest)) (hn : lookup (Path.text (base ++ [name])) = none)
    (position : Nat) : ¬ InTheWay lookup base (name :: rest) position := by
  intro hway
  obtain ⟨-, entry, hentry, -⟩ := hway
  have hfirst : base ++ [name] <+: base ++ (name :: rest).take (position + 1) := by
    rw [List.prefix_append_right_inj, List.take_succ_cons]
    exact ⟨_, rfl⟩
  have hvalid : Path.Valid (base ++ (name :: rest).take (position + 1)) := by
    refine hv.of_prefix ?_
    rw [List.prefix_append_right_inj]
    exact List.take_prefix _ _
  by_cases he : base ++ [name] = base ++ (name :: rest).take (position + 1)
  · rw [← he, hn] at hentry
    cases hentry
  · obtain ⟨_, habove, -⟩ := htree hvalid hfirst he (hentry ▸ Option.some_ne_none entry)
    rw [hn] at habove
    cases habove

variable {service : Metadata.Service (StateM τ)} {Within : τ → Prop}

private theorem firstConflict_spec (htree : OfTree lookup) (hlookup : LooksUp service Within lookup)
    (hv : Path.Valid (base ++ names)) (s : σ) {t : τ} (hw : Within t) :
    ∃ found t', (firstConflict base names).runOn service s t = ((.ok found, s), t') ∧
      Within t' ∧ ∀ position, found = some position ↔
        IsFirstConflict lookup base names position := by
  induction names generalizing base t with
  | nil => exact ⟨none, t, rfl, hw, by simp [IsFirstConflict, InTheWay]⟩
  | cons name rest ih =>
    have hv' := hv
    rw [List.append_cons] at hv'
    obtain ⟨t₁, hquery, hw₁⟩ :=
      Check.runOn_query (hlookup (Path.valid_append.mp hv').1) s hw
    rw [firstConflict, Check.runOn_bind, hquery]
    dsimp only
    cases hn : lookup (Path.text (base ++ [name])) with
    | none =>
      have hclear := not_inTheWay_of_absent htree hv hn
      exact ⟨none, t₁, rfl, hw₁, by simp [IsFirstConflict, hclear]⟩
    | some entry =>
      have hway : InTheWay lookup base (name :: rest) 0 ↔
          rest = [] ∨ (!entry.isDirectory) = true := by
        simp [InTheWay, hn]
      dsimp only
      by_cases hc : rest = [] ∨ (!entry.isDirectory) = true
      · rw [if_pos hc]
        refine ⟨some 0, t₁, rfl, hw₁, fun position => ?_⟩
        have hfirst : IsFirstConflict lookup base (name :: rest) 0 :=
          ⟨hway.mpr hc, fun _ hlt => absurd hlt (Nat.not_lt_zero _)⟩
        constructor
        · intro he
          exact Option.some.inj he ▸ hfirst
        · intro h
          rw [hfirst.unique h]
      · obtain ⟨found, t₂, hrun, hw₂, hiff⟩ := ih hv' hw₁
        rw [if_neg hc, Check.runOn_bind, hrun]
        refine ⟨found.map (· + 1), t₂, rfl, hw₂, fun position => ?_⟩
        cases position with
        | zero => simpa [IsFirstConflict, hway] using hc
        | succ position =>
          rw [isFirstConflict_cons_succ (fun h => hc (hway.mp h)), ← hiff]
          simp

private theorem creatable_of_none {found : Option Nat} (hne : names ≠ [])
    (hfound : ∀ position, found = some position ↔ IsFirstConflict lookup base names position) :
    found = none ↔ Creatable lookup base names := by
  rw [creatable_iff hne]
  constructor
  · intro hnone position hway
    obtain ⟨first, hfirst⟩ := exists_firstConflict hway
    rw [hnone] at hfound
    exact absurd ((hfound first).mpr hfirst) (by simp)
  · intro hclear
    cases hf : found with
    | none => rfl
    | some position => exact absurd ((hfound position).mp hf).1 (hclear position)

@[simp] theorem length_withSuffix (names : List String) (position suffix : Nat) :
    (withSuffix names position suffix).length = names.length := by
  simp [withSuffix]

private theorem take_withSuffix {number : Nat} (h : number ≤ position) (suffix : Nat) :
    (withSuffix names position suffix).take number = names.take number := by
  rw [withSuffix, List.take_modify, List.modify_eq_self]
  exact (List.length_take_le _ _).trans h

private theorem getElem?_withSuffix {index : Nat} (h : index ≠ position) (suffix : Nat) :
    (withSuffix names position suffix)[index]? = names[index]? := by
  simp [withSuffix, Ne.symm h]

theorem withSuffix_valid {names : List String} (h : Path.Valid names) (position suffix : Nat) :
    Path.Valid (withSuffix names position suffix) := by
  rw [withSuffix]
  induction names generalizing position with
  | nil => simp
  | cons name names ih =>
    obtain ⟨hname, hnames⟩ := Path.valid_cons.mp h
    cases position with
    | zero =>
      rw [List.modify_zero_cons]
      exact Path.valid_cons.mpr ⟨Path.isSegment_numbered hname suffix, hnames⟩
    | succ position =>
      rw [List.modify_succ_cons]
      exact Path.valid_cons.mpr ⟨hname, ih hnames position⟩

private theorem creatable_withSuffix (h : IsFirstConflict lookup base names position)
    (suffix : Nat) :
    Creatable lookup base (withSuffix names position suffix) ↔
      Creatable lookup (base ++ (withSuffix names position suffix).take position)
        ((withSuffix names position suffix).drop position) := by
  have hlt := h.1.1
  let above := (withSuffix names position suffix).take position
  let below := (withSuffix names position suffix).drop position
  have hsplit : above ++ below = withSuffix names position suffix := List.take_append_drop _ _
  have hlength : above.length = position := by
    simp only [above, List.length_take, length_withSuffix]
    omega
  have hbelow : below ≠ [] := by
    rw [ne_eq, List.drop_eq_nil_iff, length_withSuffix]
    omega
  have hall : withSuffix names position suffix ≠ [] := by
    rw [← List.length_pos_iff, length_withSuffix]
    omega
  have hshift : ∀ number,
      InTheWay lookup base (withSuffix names position suffix) (position + number) ↔
        InTheWay lookup (base ++ above) below number := by
    intro number
    rw [← hsplit, ← hlength]
    exact inTheWay_append above below number
  rw [creatable_iff hall, creatable_iff hbelow]
  constructor
  · intro hclear number hway
    exact hclear _ ((hshift number).mpr hway)
  · intro hclear number hway
    by_cases hn : number < position
    · refine h.2 number hn ?_
      rw [InTheWay, length_withSuffix, take_withSuffix (Nat.succ_le_of_lt hn)] at hway
      exact hway
    · obtain ⟨more, rfl⟩ := Nat.exists_eq_add_of_le (Nat.le_of_not_lt hn)
      exact hclear more ((hshift more).mp hway)

private theorem freeName_spec (htree : OfTree lookup) (hlookup : LooksUp service Within lookup)
    (hv : Path.Valid (base ++ names)) (hfirst : IsFirstConflict lookup base names position)
    (left suffix : Nat) (s : σ) {t : τ} (hw : Within t) :
    ∃ t', Within t' ∧
      ((freeName base names position suffix left).runOn service s t = ((.ok none, s), t') ∧
          (∀ number, suffix ≤ number → number < suffix + left →
            ¬ Creatable lookup base (withSuffix names position number)) ∨
        ∃ number, suffix ≤ number ∧ number < suffix + left ∧
          (freeName base names position suffix left).runOn service s t =
            ((.ok (some (base ++ withSuffix names position number)), s), t') ∧
          Creatable lookup base (withSuffix names position number) ∧
          ∀ lower, suffix ≤ lower → lower < number →
            ¬ Creatable lookup base (withSuffix names position lower)) := by
  obtain ⟨hbase, hnames⟩ := Path.valid_append.mp hv
  induction left generalizing suffix t with
  | zero => exact ⟨t, hw, .inl ⟨rfl, by omega⟩⟩
  | succ left ih =>
    have hc := withSuffix_valid hnames position suffix
    have hsplit := List.take_append_drop position (withSuffix names position suffix)
    have hv' : Path.Valid (base ++ (withSuffix names position suffix).take position ++
        (withSuffix names position suffix).drop position) := by
      rw [List.append_assoc, hsplit]
      exact Path.valid_append.mpr ⟨hbase, hc⟩
    have hrest : (withSuffix names position suffix).drop position ≠ [] := by
      have hlt := hfirst.1.1
      rw [ne_eq, List.drop_eq_nil_iff, length_withSuffix]
      omega
    obtain ⟨found, t₁, hrun, hw₁, hfound⟩ := firstConflict_spec htree hlookup hv' s hw
    have hnone := creatable_of_none hrest hfound
    rw [← creatable_withSuffix hfirst] at hnone
    rw [freeName, Check.runOn_bind, hrun]
    cases found with
    | none =>
      refine ⟨t₁, hw₁, .inr ⟨suffix, le_rfl, by omega, rfl, hnone.mp rfl, by omega⟩⟩
    | some _ =>
      have htaken : ¬ Creatable lookup base (withSuffix names position suffix) :=
        fun h => by simpa using hnone.mpr h
      have hlater : ∀ number, suffix ≤ number → number = suffix ∨ suffix + 1 ≤ number := by
        omega
      obtain ⟨t', hw', hended⟩ := ih (suffix + 1) hw₁
      refine ⟨t', hw', ?_⟩
      rcases hended with ⟨hended, hall⟩ | ⟨number, hle, hlt, hended, hfree, hleast⟩
      · refine .inl ⟨hended, fun number hge hlt => ?_⟩
        rcases hlater number hge with rfl | hmore
        · exact htaken
        · exact hall number hmore (by omega)
      · refine .inr ⟨number, by omega, by omega, hended, hfree, fun lower hge hlt' => ?_⟩
        rcases hlater lower hge with rfl | hmore
        · exact htaken
        · exact hleast lower hmore hlt'

/-! ## Candidates -/

/-- The candidate of a number: the path itself for zero, else the path with the number as an ending of
the first name that something is in the way of. -/
def Candidate (lookup : String → Option Entry) (directory path : Path) (number : Nat)
    (names : List String) : Prop :=
  number = 0 ∧ names = path ∨
    0 < number ∧ ∃ position, IsFirstConflict lookup directory path position ∧
      names = withSuffix path position number

/-- The first candidate that can be made, with no number above the last one to try. -/
structure IsFirstFree (lookup : String → Option Entry) (directory path : Path) (last number : Nat)
    (names : List String) : Prop where
  le_last : number ≤ last
  candidate : Candidate lookup directory path number names
  creatable : Creatable lookup directory names
  least : ∀ lower < number, ∀ others, Candidate lookup directory path lower others →
    ¬ Creatable lookup directory others

private theorem Candidate.unique {number : Nat} {others : List String}
    (h : Candidate lookup directory path number names)
    (h' : Candidate lookup directory path number others) : names = others := by
  rcases h with ⟨rfl, rfl⟩ | ⟨hpos, position, hfirst, rfl⟩
  · rcases h' with ⟨-, rfl⟩ | ⟨hpos, -⟩
    · rfl
    · exact absurd hpos (lt_irrefl 0)
  · rcases h' with ⟨rfl, -⟩ | ⟨-, other, hother, rfl⟩
    · exact absurd hpos (lt_irrefl 0)
    · rw [hfirst.unique hother]

private theorem IsFirstFree.unique {last number other : Nat} {others : List String}
    (h : IsFirstFree lookup directory path last number names)
    (h' : IsFirstFree lookup directory path last other others) : names = others := by
  rcases Nat.lt_trichotomy number other with hlt | rfl | hgt
  · exact absurd h.creatable (h'.least number hlt names h.candidate)
  · exact h.candidate.unique h'.candidate
  · exact absurd h'.creatable (h.least other hgt others h'.candidate)

theorem Candidate.valid (hp : path.Valid) {number : Nat}
    (h : Candidate lookup directory path number names) : Path.Valid names := by
  rcases h with ⟨-, rfl⟩ | ⟨-, position, -, rfl⟩
  · exact hp
  · exact withSuffix_valid hp position number

/-- A candidate has as many names as the path and differs from it in one of them at most. -/
theorem Candidate.near {number : Nat} (h : Candidate lookup directory path number names) :
    names.length = path.length ∧
      ∃ position, ∀ index : Nat, index ≠ position → names[index]? = path[index]? := by
  rcases h with ⟨-, rfl⟩ | ⟨-, position, -, rfl⟩
  · exact ⟨rfl, 0, fun _ _ => rfl⟩
  · exact ⟨length_withSuffix .., position, fun _ hne => getElem?_withSuffix hne number⟩

/-- A path inside the quarantine directory goes nowhere, one outside goes to the first candidate that
can be made, or nowhere if there is none. -/
theorem destination_cases (htree : OfTree lookup) (hlookup : LooksUp service Within lookup)
    (q : Quarantine) (hq : Path.ofText q.directory = .ok directory) {text : String}
    (hp : Path.ofText text = .ok path) (hne : path ≠ []) (s : σ) {t : τ} (hw : Within t) :
    ∃ ended t', (q.destination text).runOn service s t = ((ended, s), t') ∧ Within t' ∧
      (directory <+: path ∧ ended = .error (.quarantine (.inside text directory.text)) ∨
        ¬ directory <+: path ∧ ended = .error (.quarantine (.noFreeName text q.maxSuffix)) ∧
          (∀ number ≤ q.maxSuffix.toNat, ∀ names, Candidate lookup directory path number names →
            ¬ Creatable lookup directory names) ∨
        ¬ directory <+: path ∧ ∃ number names, ended = .ok (Path.text (directory ++ names)) ∧
          IsFirstFree lookup directory path q.maxSuffix.toNat number names) := by
  have hv := Path.valid_append.mpr ⟨Path.valid_of_ofText hq, Path.valid_of_ofText hp⟩
  rw [destination, Check.runOn_bind, hq, Check.runOn_ofPath_ok]
  dsimp only
  rw [Check.runOn_bind, hp, Check.runOn_ofPath_ok]
  dsimp only
  by_cases hu : path.isUnder directory = true
  · rw [if_pos hu]
    exact ⟨_, t, rfl, hw, .inl ⟨Path.isUnder_iff.mp hu, rfl⟩⟩
  have hout : ¬ directory <+: path := fun h => hu (Path.isUnder_iff.mpr h)
  obtain ⟨found, t₁, hrun, hw₁, hfound⟩ := firstConflict_spec htree hlookup hv s hw
  have hnone := creatable_of_none hne hfound
  rw [if_neg hu, Check.runOn_bind, hrun]
  cases found with
  | none =>
    refine ⟨_, t₁, rfl, hw₁, .inr (.inr ⟨hout, 0, path, rfl, Nat.zero_le _, .inl ⟨rfl, rfl⟩,
      hnone.mp rfl, fun _ hlt => absurd hlt (Nat.not_lt_zero _)⟩)⟩
  | some position =>
    have hfirst := (hfound position).mp rfl
    have htaken : ¬ Creatable lookup directory path := fun h => by simpa using hnone.mpr h
    -- a candidate other than the path itself has its ending at this very name
    have hcandidate : ∀ {number names}, Candidate lookup directory path number names →
        number = 0 ∧ names = path ∨ 1 ≤ number ∧ names = withSuffix path position number := by
      intro number names h
      rcases h with hself | ⟨hpos, other, hother, rfl⟩
      · exact .inl hself
      · exact .inr ⟨hpos, by rw [hfirst.unique hother]⟩
    dsimp only
    rw [Check.runOn_bind]
    obtain ⟨t', hw', hended⟩ :=
      freeName_spec htree hlookup hv hfirst q.maxSuffix.toNat 1 s hw₁
    rcases hended with ⟨hended, hall⟩ | ⟨number, hle, hlt, hended, hfree, hleast⟩
    · rw [hended]
      refine ⟨_, t', rfl, hw', .inr (.inl ⟨hout, rfl, fun number hnumber names h => ?_⟩)⟩
      rcases hcandidate h with ⟨-, rfl⟩ | ⟨hpos, rfl⟩
      · exact htaken
      · exact hall number hpos (by omega)
    · rw [hended]
      refine ⟨_, t', rfl, hw', .inr (.inr ⟨hout, number, _, rfl, by omega,
        .inr ⟨by omega, position, hfirst, rfl⟩, hfree, fun lower hlower others h => ?_⟩)⟩
      rcases hcandidate h with ⟨-, rfl⟩ | ⟨hpos, rfl⟩
      · exact htaken
      · exact hleast lower hpos hlower

/-- The text is that of a place where nothing is, strictly below the directory, as deep below it as
the path is below the root, and with the names of the path but one at most. -/
def IsFaithful (lookup : String → Option Entry) (directory path : Path) (text : String) : Prop :=
  lookup text = none ∧ ∃ place : Path, Path.ofText text = .ok place ∧ directory <+: place ∧
    place ≠ directory ∧ place.length = directory.length + path.length ∧
    ∃ position, ∀ index : Nat, index ≠ position → place[index]? = (directory ++ path)[index]?

private theorem IsFirstFree.isFaithful {last number : Nat} (hd : directory.Valid) (hp : path.Valid)
    (hne : path ≠ []) (h : IsFirstFree lookup directory path last number names) :
    IsFaithful lookup directory path (Path.text (directory ++ names)) := by
  obtain ⟨hlength, position, hsame⟩ := h.candidate.near
  have hv := Path.valid_append.mpr ⟨hd, h.candidate.valid hp⟩
  refine ⟨h.creatable.absent, directory ++ names, Path.ofText_text hv, List.prefix_append .., ?_, ?_,
    directory.length + position, fun index hindex => ?_⟩
  · have hpos := List.length_pos_iff.mpr hne
    intro he
    have hall := congrArg List.length he
    rw [List.length_append] at hall
    omega
  · rw [List.length_append, hlength]
  · rcases Nat.lt_or_ge index directory.length with hlt | hge
    · rw [List.getElem?_append_left hlt, List.getElem?_append_left hlt]
    · rw [List.getElem?_append_right hge, List.getElem?_append_right hge]
      exact hsame _ (by omega)

/-- For a path that is not in the quarantine directory there is a destination exactly if one of the
candidates can be made, and then it is the first of these; else, and for any path that is in there,
the quarantine fails. -/
theorem destination_first_free (htree : OfTree lookup) (hlookup : LooksUp service Within lookup)
    (q : Quarantine) (hq : Path.ofText q.directory = .ok directory) {last : Nat}
    (hlast : q.maxSuffix = last) {text : String} (hp : Path.ofText text = .ok path)
    (hne : path ≠ []) (s : σ) {t : τ} (hw : Within t) :
    ∃ ended t', (q.destination text).runOn service s t = ((ended, s), t') ∧ Within t' ∧
      (directory <+: path → ended = .error (.quarantine (.inside text directory.text))) ∧
      (¬ directory <+: path →
        ((∃ d, ended = .ok d) ↔ ∃ number ≤ last, ∃ names,
          Candidate lookup directory path number names ∧ Creatable lookup directory names) ∧
        (∀ d, ended = .ok d ↔ ∃ number names,
          IsFirstFree lookup directory path last number names ∧
            Path.text (directory ++ names) = d) ∧
        (∀ d, ended = .ok d → IsFaithful lookup directory path d) ∧
        ((¬ ∃ d, ended = .ok d) → ended = .error (.quarantine (.noFreeName text last)))) := by
  have hd := Path.valid_of_ofText hq
  have hv := Path.valid_of_ofText hp
  obtain ⟨ended, t', hrun, hw', hcases⟩ := destination_cases htree hlookup q hq hp hne s hw
  refine ⟨ended, t', hrun, hw', ?_⟩
  rw [hlast, Int.toNat_natCast] at hcases
  rcases hcases with ⟨hin, rfl⟩ | ⟨hout, rfl, hall⟩ | ⟨hout, number, names, rfl, hfree⟩
  · exact ⟨fun _ => rfl, fun hout => absurd hin hout⟩
  · refine ⟨fun hin => absurd hin hout, fun _ => ⟨?_, fun d => ?_, by simp, fun _ => rfl⟩⟩
    · simp only [reduceCtorEq, exists_false, false_iff]
      intro hsome
      obtain ⟨number, hle, names, hcandidate, hcreatable⟩ := hsome
      exact hall number hle names hcandidate hcreatable
    · simp only [reduceCtorEq, false_iff]
      intro hsome
      obtain ⟨number, names, hfree, -⟩ := hsome
      exact hall number hfree.le_last names hfree.candidate hfree.creatable
  · refine ⟨fun hin => absurd hin hout, fun _ => ⟨?_, fun d => ?_, fun d hd' => ?_, ?_⟩⟩
    · exact ⟨fun _ => ⟨number, hfree.le_last, names, hfree.candidate, hfree.creatable⟩,
        fun _ => ⟨_, rfl⟩⟩
    · constructor
      · intro he
        exact ⟨number, names, hfree, Except.ok.inj he⟩
      · intro hsome
        obtain ⟨other, others, hother, rfl⟩ := hsome
        rw [hfree.unique hother]
    · exact Except.ok.inj hd' ▸ hfree.isFaithful hd hv hne
    · exact fun hnone => absurd ⟨_, rfl⟩ hnone

/-- A file in the quarantine directory, and another one below the name with the first ending. -/
def crowded : Namespace :=
  (Namespace.empty 4 1 ["n1"]).after [.createFile "/lost+found/a" 4 none none none,
    .createFile "/lost+found/a.1/b" 4 none none none]

theorem crowded_reachable : crowded.Reachable := ⟨4, 1, ["n1"], _, rfl⟩

/-- The file `a` is in the way of `a/b`, and with the first ending there is something at its last
name. -/
theorem destination_first_free_of_crowded :
    (OfTree (entryIn crowded) ∧ LooksUp onNamespace (· = crowded) (entryIn crowded) ∧
      Path.ofText "/lost+found" = .ok ["lost+found"] ∧ Path.ofText "/a/b" = .ok ["a", "b"]) ∧
    (destination { maxSuffix := 3 } "/a/b" : Check Unit String).runOn onNamespace () crowded =
      ((.ok "/lost+found/a.2/b", ()), crowded) ∧
    (∃ number names, IsFirstFree (entryIn crowded) ["lost+found"] ["a", "b"] 3 number names ∧
      Path.text (["lost+found"] ++ names) = "/lost+found/a.2/b") ∧
    IsFaithful (entryIn crowded) ["lost+found"] ["a", "b"] "/lost+found/a.2/b" := by
  have htree : OfTree (entryIn crowded) := ofTree_entryIn crowded
  have hlookup : LooksUp onNamespace (· = crowded) (entryIn crowded) := looksUp_entryIn crowded
  have hlast : ({ maxSuffix := 3 } : Quarantine).maxSuffix = (3 : Nat) := rfl
  have hq : Path.ofText "/lost+found" = .ok ["lost+found"] := by decide +kernel
  have hp : Path.ofText "/a/b" = .ok ["a", "b"] := by decide +kernel
  have hout : ¬ ["lost+found"] <+: ["a", "b"] := by simp
  have hended : ((destination { maxSuffix := 3 } "/a/b" : Check Unit String).runOn onNamespace ()
    crowded).1.1 = .ok "/lost+found/a.2/b" := by decide +kernel
  obtain ⟨ended, after, hrun, hw, -, houtside⟩ :=
    destination_first_free htree hlookup { maxSuffix := 3 } hq hlast hp (by simp) () rfl
  have hsame : after = crowded := hw
  rw [hsame] at hrun
  rw [hrun] at hended
  obtain rfl : ended = .ok "/lost+found/a.2/b" := hended
  obtain ⟨-, hiff, hfaithful, -⟩ := houtside hout
  exact ⟨⟨htree, hlookup, hq, hp⟩, hrun, (hiff _).mp rfl, hfaithful _ rfl⟩

end BlockFsck.Quarantine
