import BlockFsck.Proofs.Namespace.Reading

/-!
# The namespace as a map of paths

What a namespace holds is a map from paths to directories and file records. The requests that change
the tree are functions on that map: a move carries everything at or below its source along, new
directories fill the gaps above a path, and a deletion empties all at or below one.
-/

namespace BlockFsck

/-- A text that names no path: it does not start with a slash, or goes through `.` or `..`. -/
def Path.Refused (text : String) : Prop :=
  text.toList.head? ≠ some '/' ∨ "." ∈ Path.names text ∨ ".." ∈ Path.names text

/-- What is at a path, whichever path that is. -/
inductive Sight
  | directory
  | file (record : FileRecord)
  deriving DecidableEq

abbrev PathMap := Path → Option Sight

namespace PathMap

/-- Both are below the root, the target is not in the source, and only the source is taken; the
target is to be in a directory. -/
structure CanMove (map : PathMap) (source target : Path) : Prop where
  source_below : source ≠ []
  target_below : target ≠ []
  apart : ¬ source <+: target
  present : map source ≠ none
  free : map target = none
  parent : map target.parent = some .directory

/-- Neither the path nor anything above it is a file. -/
def CanMake (map : PathMap) (path : Path) : Prop :=
  ∀ above record, above <+: path → map above ≠ some (.file record)

/-- A file, a directory with nothing in it, or, if `recursive`, whatever there is. -/
structure CanRemove (map : PathMap) (path : Path) (recursive : Bool) : Prop where
  below : path ≠ []
  present : map path ≠ none
  kind : (∃ record, map path = some (.file record)) ∨
    (map path = some .directory ∧ ∀ other, path <+: other → other ≠ path → map other = none) ∨
    recursive = true

/-- What was at or below the source is at or below the target. -/
def move (map : PathMap) (source target : Path) : PathMap := fun path =>
  if target <+: path then map (source ++ path.drop target.length)
  else if source <+: path then none
  else map path

/-- The path and all above it are there. -/
def make (map : PathMap) (path : Path) : PathMap := fun other =>
  if other <+: path ∧ map other = none then some .directory else map other

/-- Nothing is at or below the path. -/
def remove (map : PathMap) (path : Path) : PathMap := fun other =>
  if path <+: other then none else map other

end PathMap

namespace Namespace

variable {ns : Namespace}

/-- A file shows its record, but for the path. -/
def sight (ns : Namespace) : Node → Sight
  | .directory => .directory
  | .file content => .file { ns.recordOf [] content with path := "" }

def pathMap (ns : Namespace) : PathMap := fun path => (ns.node? path).map ns.sight

/-- The answer to a request that names paths by their texts, and what has become of the map: where
the request is granted the map changes, and in every other case it stays. -/
structure Answers (ns : Namespace) (texts : List String) (granted : Prop) (changed : PathMap)
    (answer : Except NamespaceError Bool) (after : Namespace) : Prop where
  true_iff : answer = .ok true ↔ (∀ text ∈ texts, ¬ Path.Refused text) ∧ granted
  false_of_denied : (∀ text ∈ texts, ¬ Path.Refused text) → ¬ granted → answer = .ok false
  error_of_refused : (∃ text ∈ texts, Path.Refused text) →
    ∃ cause, answer = .error cause ∧ cause.kind = .invalidPath
  changes : answer = .ok true → after.pathMap = changed
  keeps : answer ≠ .ok true → after.pathMap = ns.pathMap

/-- The requests that change the tree do to the map what their names say, for any texts. -/
structure RefinesMap (ns : Namespace) : Prop where
  rename : ∀ source target, ns.Answers [source, target]
    (ns.pathMap.CanMove (Path.names source) (Path.names target))
    (ns.pathMap.move (Path.names source) (Path.names target))
    ((rename source target).run ns).1 ((rename source target).run ns).2
  mkdirs : ∀ path, ns.Answers [path] (ns.pathMap.CanMake (Path.names path))
    (ns.pathMap.make (Path.names path)) ((mkdirs path).run ns).1 ((mkdirs path).run ns).2
  delete : ∀ path recursive, ns.Answers [path]
    (ns.pathMap.CanRemove (Path.names path) recursive) (ns.pathMap.remove (Path.names path))
    ((delete path recursive).run ns).1 ((delete path recursive).run ns).2

private theorem isRelative_iff {segment : String} :
    Path.isRelative segment = true ↔ segment = "." ∨ segment = ".." := by
  simp [Path.isRelative]

private theorem readPath_of_refused {text : String} (h : Path.Refused text) :
    ∃ cause, readPath text = .error cause ∧ cause.kind = .invalidPath := by
  rw [readPath, Path.ofText]
  by_cases hslash : text.toList.head? = some '/'
  · rw [if_pos hslash]
    have hrelative : ∃ segment ∈ Path.names text, Path.isRelative segment = true := by
      rcases h.resolve_left (fun hno => hno hslash) with hmem | hmem
      · exact ⟨".", hmem, rfl⟩
      · exact ⟨"..", hmem, rfl⟩
    obtain ⟨segment, hfound⟩ := Option.isSome_iff_exists.mp (List.find?_isSome.mpr hrelative)
    exact ⟨_, by simp only [hfound]; rfl, rfl⟩
  · rw [if_neg hslash]
    exact ⟨_, rfl, rfl⟩

private theorem readPath_of_not_refused {text : String} (h : ¬ Path.Refused text) :
    readPath text = .ok (Path.names text) := by
  simp only [Path.Refused, not_or, not_not] at h
  obtain ⟨hslash, hdot, hdots⟩ := h
  have hnone : (Path.names text).find? Path.isRelative = none := by
    rw [List.find?_eq_none]
    intro segment hmem hrelative
    rcases isRelative_iff.mp hrelative with rfl | rfl
    · exact hdot hmem
    · exact hdots hmem
  rw [readPath, Path.ofText, if_pos hslash]
  simp only [hnone]
  rfl

theorem pathMap_eq_none {path : Path} : ns.pathMap path = none ↔ ns.node? path = none := by
  rw [pathMap, Option.map_eq_none_iff]

theorem pathMap_eq_directory {path : Path} :
    ns.pathMap path = some .directory ↔ ns.node? path = some .directory := by
  rw [pathMap]
  rcases ns.node? path with _ | _ | content <;> simp [sight]

private theorem pathMap_eq_file {path : Path} :
    (∃ record, ns.pathMap path = some (.file record)) ↔
      ∃ content, ns.node? path = some (.file content) := by
  rw [pathMap]
  rcases ns.node? path with _ | _ | content <;> simp [sight]

private theorem pathMap_congr {after : Namespace} {path other : Path}
    (hnode : after.node? path = ns.node? other)
    (hrecord : ∀ content, ns.node? other = some (.file content) →
      after.recordOf [] content = ns.recordOf [] content) :
    after.pathMap path = ns.pathMap other := by
  rw [pathMap, pathMap, hnode]
  rcases hn : ns.node? other with _ | _ | content
  · rfl
  · rfl
  · simp only [Option.map_some, sight, hrecord content hn]

theorem sight_root (ns : Namespace) (root : Table String Inode) :
    ({ ns with root } : Namespace).sight = ns.sight := by
  funext node
  cases node <;> rfl

private theorem canMove_iff {source target : Path} :
    ns.pathMap.CanMove source target ↔ ns.CanRename source target := by
  constructor
  · rintro ⟨hs, ht, hapart, hpresent, hfree, hparent⟩
    exact ⟨hs, ht, hapart, mt pathMap_eq_none.mpr hpresent, pathMap_eq_directory.mp hparent,
      pathMap_eq_none.mp hfree⟩
  · rintro ⟨hs, ht, hapart, hpresent, hparent, hfree⟩
    exact ⟨hs, ht, hapart, mt pathMap_eq_none.mp hpresent, pathMap_eq_none.mpr hfree,
      pathMap_eq_directory.mpr hparent⟩

private theorem canMake_iff {path : Path} : ns.pathMap.CanMake path ↔ ns.Clear path := by
  constructor
  · intro h above content ha hn
    obtain ⟨record, hrecord⟩ := pathMap_eq_file.mpr ⟨content, hn⟩
    exact h above record ha hrecord
  · intro h above record ha hrecord
    obtain ⟨content, hn⟩ := pathMap_eq_file.mp ⟨record, hrecord⟩
    exact h ha hn

private theorem canRemove_iff {path : Path} {recursive : Bool} :
    ns.pathMap.CanRemove path recursive ↔ path ≠ [] ∧ (ns.node? path).isSome = true ∧
      (recursive = true ∨ ns.isEmptyBelow path = true) := by
  rw [Option.isSome_iff_ne_none]
  constructor
  · rintro ⟨hne, hpresent, hkind⟩
    refine ⟨hne, mt pathMap_eq_none.mpr hpresent, ?_⟩
    rcases hkind with hfile | ⟨-, hempty⟩ | hrecursive
    · obtain ⟨content, hn⟩ := pathMap_eq_file.mp hfile
      refine .inr (isEmptyBelow_iff.mpr fun other hp hother => ?_)
      exact none_below (by simp [hn]) hp (Ne.symm hother)
    · refine .inr (isEmptyBelow_iff.mpr fun other hp hother => ?_)
      exact pathMap_eq_none.mp (hempty other hp hother)
    · exact .inl hrecursive
  · rintro ⟨hne, hpresent, hkind⟩
    refine ⟨hne, mt pathMap_eq_none.mp hpresent, ?_⟩
    rcases hkind with hrecursive | hempty
    · exact .inr (.inr hrecursive)
    · obtain ⟨node, hn⟩ := Option.ne_none_iff_exists'.mp hpresent
      cases node with
      | file content => exact .inl (pathMap_eq_file.mpr ⟨content, hn⟩)
      | directory =>
        refine .inr (.inl ⟨pathMap_eq_directory.mpr hn, fun other hp hother => ?_⟩)
        exact pathMap_eq_none.mpr (isEmptyBelow_iff.mp hempty other hp hother)

private theorem pathMap_moved {source target : Path} (hcan : ns.CanRename source target) :
    (ns.moved source target).pathMap = ns.pathMap.move source target := by
  funext path
  rw [pathMap, node?_moved hcan, moved, sight_root, PathMap.move]
  split_ifs <;> rfl

private theorem IsTree.pathMap_withDirectories (ht : ns.IsTree) {path : Path} (hv : path.Valid)
    (hc : ns.Clear path) : (ns.withDirectories [] path).pathMap = ns.pathMap.make path := by
  funext other
  rw [pathMap, ht.node?_withDirectories hv hc, withDirectories_eq, sight_root, PathMap.make]
  by_cases hp : other <+: path
  · rw [if_pos hp]
    -- what is there on the way is no file, and so a directory already
    rcases hn : ns.node? other with _ | _ | content
    · rw [if_pos ⟨hp, pathMap_eq_none.mpr hn⟩]
      rfl
    · have hmap := pathMap_eq_directory.mpr hn
      rw [if_neg (by simp [hmap]), hmap]
      rfl
    · exact absurd hn (hc hp)
  · rw [if_neg hp, if_neg fun h => hp h.1]
    rfl

/-- A file outside of what is removed keeps its blocks. -/
theorem Valid.recordOf_removed (h : ns.Valid) {path other : Path} {content : FileNode}
    (hout : ¬ path <+: other) (hn : ns.node? other = some (.file content)) (place : Path) :
    (ns.removed path).recordOf place content = ns.recordOf place content := by
  refine recordOf_congr place (fun id hid => ?_) rfl
  have hnot : id ∉ ns.blocksUnder path := by
    rw [h.toIsTree.mem_blocksUnder]
    rintro ⟨owner, others, hp, ho, hid'⟩
    rw [← h.owner_unique h.toIsTree hn ho hid hid'] at hp
    exact hout hp
  rw [removed_blocks, Table.get?_restrict, if_pos (by simpa using hnot)]

private theorem Valid.pathMap_removed (h : ns.Valid) {path : Path} (hne : path ≠ []) :
    (ns.removed path).pathMap = ns.pathMap.remove path := by
  funext other
  rw [PathMap.remove]
  by_cases hp : path <+: other
  · rw [if_pos hp, pathMap_eq_none, node?_removed hne, if_pos hp]
  · rw [if_neg hp]
    apply pathMap_congr
    · rw [node?_removed hne, if_neg hp]
    · intro content hn
      exact h.recordOf_removed hp hn []

namespace Answers

variable {texts : List String} {granted : Prop} {changed : PathMap}

private theorem of_refused {cause : NamespaceError} (h : ∃ text ∈ texts, Path.Refused text)
    (hkind : cause.kind = .invalidPath) : ns.Answers texts granted changed (.error cause) ns where
  true_iff := by
    obtain ⟨text, hmem, hrefused⟩ := h
    simpa using fun hnone => absurd hrefused (hnone text hmem)
  false_of_denied hnone := by
    obtain ⟨text, hmem, hrefused⟩ := h
    exact absurd hrefused (hnone text hmem)
  error_of_refused _ := ⟨cause, rfl, hkind⟩
  changes hanswer := by cases hanswer
  keeps _ := rfl

private theorem of_granted {after : Namespace} (h : ∀ text ∈ texts, ¬ Path.Refused text)
    (hgranted : granted) (hchanged : after.pathMap = changed) :
    ns.Answers texts granted changed (.ok true) after where
  true_iff := by simpa using ⟨h, hgranted⟩
  false_of_denied _ hdenied := absurd hgranted hdenied
  error_of_refused := by
    rintro ⟨text, hmem, hrefused⟩
    exact absurd hrefused (h text hmem)
  changes _ := hchanged
  keeps hanswer := absurd rfl hanswer

private theorem of_denied (h : ∀ text ∈ texts, ¬ Path.Refused text) (hdenied : ¬ granted) :
    ns.Answers texts granted changed (.ok false) ns where
  true_iff := by simp [hdenied]
  false_of_denied _ _ := rfl
  error_of_refused := by
    rintro ⟨text, hmem, hrefused⟩
    exact absurd hrefused (h text hmem)
  changes hanswer := by cases hanswer
  keeps _ := rfl

end Answers

private theorem answers_rename (ns : Namespace) (source target : String) :
    ns.Answers [source, target] (ns.pathMap.CanMove (Path.names source) (Path.names target))
      (ns.pathMap.move (Path.names source) (Path.names target))
      ((Namespace.rename source target).run ns).1
      ((Namespace.rename source target).run ns).2 := by
  rw [run_rename]
  by_cases hs : Path.Refused source
  · obtain ⟨cause, hread, hkind⟩ := readPath_of_refused hs
    rw [hread]
    exact .of_refused ⟨source, by simp, hs⟩ hkind
  by_cases ht : Path.Refused target
  · obtain ⟨cause, hread, hkind⟩ := readPath_of_refused ht
    rw [readPath_of_not_refused hs, hread]
    exact .of_refused ⟨target, by simp, ht⟩ hkind
  have hread : ∀ text ∈ [source, target], ¬ Path.Refused text := by simp [hs, ht]
  rw [readPath_of_not_refused hs, readPath_of_not_refused ht]
  dsimp only
  split_ifs with hcan
  · exact .of_granted hread (canMove_iff.mpr hcan) (pathMap_moved hcan)
  · exact .of_denied hread (mt canMove_iff.mp hcan)

private theorem Valid.answers_mkdirs (h : ns.Valid) (text : String) :
    ns.Answers [text] (ns.pathMap.CanMake (Path.names text)) (ns.pathMap.make (Path.names text))
      ((Namespace.mkdirs text).run ns).1 ((Namespace.mkdirs text).run ns).2 := by
  rw [Namespace.mkdirs, run_bind, run_look]
  by_cases ht : Path.Refused text
  · obtain ⟨cause, hread, hkind⟩ := readPath_of_refused ht
    rw [hread]
    exact .of_refused ⟨text, by simp, ht⟩ hkind
  have hread : ∀ other ∈ [text], ¬ Path.Refused other := by simp [ht]
  have hv := valid_of_readPath (readPath_of_not_refused ht)
  rw [readPath_of_not_refused ht]
  dsimp only
  generalize Path.names text = path at hv
  rcases run_makeDirectories ns path with ⟨hc, hrun⟩ | ⟨hc, hrun⟩
  · rw [hrun]
    exact .of_granted hread (canMake_iff.mpr hc) (h.pathMap_withDirectories hv hc)
  · rw [hrun]
    exact .of_denied hread (mt canMake_iff.mp hc)

private theorem Valid.answers_delete (h : ns.Valid) (text : String) (recursive : Bool) :
    ns.Answers [text] (ns.pathMap.CanRemove (Path.names text) recursive)
      (ns.pathMap.remove (Path.names text)) ((Namespace.delete text recursive).run ns).1
      ((Namespace.delete text recursive).run ns).2 := by
  rw [run_delete]
  by_cases ht : Path.Refused text
  · obtain ⟨cause, hread, hkind⟩ := readPath_of_refused ht
    rw [hread]
    exact .of_refused ⟨text, by simp, ht⟩ hkind
  have hread : ∀ other ∈ [text], ¬ Path.Refused other := by simp [ht]
  rw [readPath_of_not_refused ht]
  dsimp only
  split_ifs with hcan
  · exact .of_granted hread (canRemove_iff.mpr hcan) (h.pathMap_removed hcan.1)
  · exact .of_denied hread (mt canRemove_iff.mp hcan)

/-- A namespace that can be reached is a map of paths, and moving, making directories and deleting
are functions on that map. -/
theorem refinesMap (h : ns.Reachable) : ns.RefinesMap where
  rename := answers_rename ns
  mkdirs := h.valid.answers_mkdirs
  delete := h.valid.answers_delete

/-- A file moves between texts with more slashes than they need. -/
theorem refinesMap_of_move : ∃ after,
    (rename "//a/" "/b").run (oneCorruptFile none 4) = (.ok true, after) ∧
      after.pathMap ["b"] = (oneCorruptFile none 4).pathMap ["a"] ∧
      (oneCorruptFile none 4).pathMap ["a"] ≠ none ∧ after.pathMap ["a"] = none := by
  have hmoves := (refinesMap (oneCorruptFile_reachable none 4)).rename "//a/" "/b"
  have hanswer : ((rename "//a/" "/b").run (oneCorruptFile none 4)).1 = .ok true := by
    decide +kernel
  have hmap := hmoves.changes hanswer
  have hsource : Path.names "//a/" = ["a"] := by decide +kernel
  have htarget : Path.names "/b" = ["b"] := by decide +kernel
  rw [hsource, htarget] at hmap
  refine ⟨_, Prod.ext hanswer rfl, ?_, by decide +kernel, ?_⟩
  · rw [hmap]
    rfl
  · rw [hmap]
    rfl

end Namespace

end BlockFsck
