/-!
# Namespace paths

A path is its list of name segments, `[]` being the root. Its text starts with a slash and puts
one slash between segments; reading forgives repeated and trailing slashes and refuses the
segments `.` and `..`. Reading a written path gives the path back (`ofText_text`).
-/

namespace BlockFsck

abbrev Path := List String

inductive PathError
  | notAbsolute (text : String)
  | relativeSegment (segment text : String)
  deriving Repr, DecidableEq

def PathError.message : PathError → String
  | .notAbsolute text => s!"Path must be absolute: '{text}'"
  | .relativeSegment segment text => s!"Relative segment '{segment}' not allowed in '{text}'"

namespace Path

/-- As many names in one path as in the other. -/
def sameDepth : Path → Path → Bool
  | [], [] => true
  | _ :: path, _ :: other => sameDepth path other
  | _, _ => false

/-- The names of one path are those of the other, told from the last ones on. -/
def sameNames : Path → Path → Bool
  | [], [] => true
  | name :: path, other :: others => sameNames path others && name == other
  | _, _ => false

/-- Equality. Two paths mostly differ in depth or in their last names, and so these come first. -/
def same (path other : Path) : Bool := sameDepth path other && sameNames path other

theorem same_iff {path other : Path} : same path other ↔ path = other := by
  unfold same
  induction path generalizing other with
  | nil => cases other <;> simp [sameDepth, sameNames]
  | cons name path ih =>
    cases other with
    | nil => simp [sameDepth]
    | cons other others =>
      simp only [Bool.and_eq_true] at ih
      simp [sameDepth, sameNames, ← ih, and_left_comm, and_comm]

instance : DecidableEq Path := fun _ _ => decidable_of_iff _ same_iff

/-- The stretches between separators, one more than there are separators. -/
def pieces (separator : Char) : List Char → List (List Char)
  | [] => [[]]
  | c :: rest =>
    if c = separator then [] :: pieces separator rest
    else match pieces separator rest with
      | [] => [[c]]
      | first :: others => (c :: first) :: others

/-- The names in a path text, with nothing refused. -/
def names (text : String) : Path :=
  ((pieces '/' text.toList).filter (· ≠ [])).map String.ofList

def isRelative (segment : String) : Bool := segment == "." || segment == ".."

def ofText (text : String) : Except PathError Path :=
  if text.toList.head? = some '/' then
    let path := names text
    match path.find? isRelative with
    | some segment => .error (.relativeSegment segment text)
    | none => .ok path
  else .error (.notAbsolute text)

def text (path : Path) : String := "/" ++ String.intercalate "/" path

/-- The text with every run of slashes made one and none at the end. -/
def normalize (text : String) : Except PathError String := (ofText text).map Path.text

/-- The containing directory; the root contains itself. -/
def parent (path : Path) : Path := path.dropLast

def parentText (text : String) : Except PathError String :=
  (ofText text).map fun path => path.parent.text

/-- The text of the entry `name` in the directory whose text is `directory`. -/
def childText (directory name : String) : String :=
  if directory = "/" then "/" ++ name else directory ++ "/" ++ name

/-- Equal to `root` or below it, segment by segment. -/
def isUnder (path root : Path) : Bool := root.isPrefixOf path

def textIsUnder (text root : String) : Except PathError Bool := do
  let path ← ofText text
  return path.isUnder (← ofText root)

/-- What follows the last slash, or a slash when nothing does. -/
def baseName (text : String) : String :=
  match (pieces '/' text.toList).getLast? with
  | some (c :: rest) => String.ofList (c :: rest)
  | _ => "/"

/-! ### Reading a written path -/

theorem pieces_of_not_mem {separator : Char} {cs : List Char} (h : separator ∉ cs) :
    pieces separator cs = [cs] := by
  induction cs with
  | nil => rfl
  | cons c cs ih =>
    have hc : c ≠ separator := fun e => h (by simp [e])
    simp [pieces, hc, ih fun m => h (by simp [m])]

theorem pieces_append {separator : Char} {cs : List Char} (h : separator ∉ cs) (rest : List Char) :
    pieces separator (cs ++ separator :: rest) = cs :: pieces separator rest := by
  induction cs with
  | nil => simp [pieces]
  | cons c cs ih =>
    have hc : c ≠ separator := fun e => h (by simp [e])
    simp [pieces, hc, ih fun m => h (by simp [m])]

theorem pieces_intercalate {separator : Char} {parts : List (List Char)}
    (h : ∀ part ∈ parts, separator ∉ part) (hne : parts ≠ []) :
    pieces separator (List.intercalate [separator] parts) = parts := by
  induction parts with
  | nil => exact absurd rfl hne
  | cons part parts ih =>
    have hpart := h part (by simp)
    cases parts with
    | nil => simpa using pieces_of_not_mem hpart
    | cons next parts =>
      have ih := ih (fun other hother => h other (List.mem_cons_of_mem part hother)) (by simp)
      rw [List.intercalate_cons_cons, List.append_assoc, List.singleton_append,
        pieces_append hpart, ih]

/-- A name that can stand between two slashes and is not refused. -/
def IsSegment (s : String) : Prop := s ≠ "" ∧ '/' ∉ s.toList ∧ isRelative s = false

theorem pieces_names {path : Path} (h : ∀ s ∈ path, IsSegment s) (hne : path ≠ []) :
    pieces '/' (List.intercalate ['/'] (path.map String.toList)) = path.map String.toList := by
  apply pieces_intercalate
  · intro part hpart
    obtain ⟨s, hs, rfl⟩ := List.mem_map.1 hpart
    exact (h s hs).2.1
  · simpa using hne

theorem names_text {path : Path} (h : ∀ s ∈ path, IsSegment s) : names path.text = path := by
  have toList : path.text.toList = '/' :: List.intercalate ['/'] (path.map String.toList) := by
    simp [Path.text, String.toList_append, String.toList_intercalate]
  have keep : ∀ cs ∈ path.map String.toList, decide (cs ≠ []) = true := by
    intro cs hcs
    obtain ⟨s, hs, rfl⟩ := List.mem_map.1 hcs
    simpa using (h s hs).1
  have pieces_text :
      (pieces '/' (List.intercalate ['/'] (path.map String.toList))).filter (· ≠ [])
        = path.map String.toList := by
    cases path with
    | nil => rfl
    | cons s path =>
      rw [pieces_names h (by simp), List.filter_eq_self.2 keep]
  have head : pieces '/' path.text.toList
      = [] :: pieces '/' (List.intercalate ['/'] (path.map String.toList)) := by
    rw [toList]; simp [pieces]
  rw [names, head, List.filter_cons_of_neg (by simp), pieces_text, List.map_map]
  exact List.map_id'' (fun s => String.ofList_toList) path

theorem ofText_text {path : Path} (h : ∀ s ∈ path, IsSegment s) :
    ofText path.text = .ok path := by
  have slash : path.text.toList.head? = some '/' := by
    simp [Path.text, String.toList_append]
  have none : path.find? isRelative = none := by
    simpa using fun s hs => (h s hs).2.2
  simp [ofText, slash, names_text h, none]

end Path

end BlockFsck
