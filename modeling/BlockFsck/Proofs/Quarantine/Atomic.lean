import BlockFsck.Proofs.Namespace.Ownership
import BlockFsck.Proofs.Namespace.PathMap
import BlockFsck.Proofs.Quarantine

/-!
# A move is all or nothing

A move first makes the directories above the destination and then renames the file. On a namespace
that nobody else changes the rename is granted whenever the directories could be made, so that a
move that fails leaves nothing behind.
-/

namespace BlockFsck.Quarantine

open Metadata (onNamespace)

variable {σ : Type} {ns : Namespace}

/-- Where the file would go, if anywhere. -/
def destinationIn (quarantine : Quarantine) (text : String) (s : σ) (ns : Namespace) :
    Except Failure String :=
  ((quarantine.destination text).runOn onNamespace s ns).1.1

/-- A file with the record was to go into the quarantine directory: how this ended, and what the
namespace is afterwards. -/
structure AllOrNothing (quarantine : Quarantine) (directory path : Path) (text : String)
    (record : FileRecord) (s : σ) (ns : Namespace) (ended : Except Failure String)
    (after : Namespace) : Prop where
  moved_iff : (∃ place, ended = .ok place) ↔ ¬ directory <+: path ∧ ns.Clear directory ∧
    ∃ place, quarantine.destinationIn text s ns = .ok place
  /-- The file is at its destination, with the directories above it, and nothing else differs. -/
  moved : ∀ place, ended = .ok place → quarantine.destinationIn text s ns = .ok place ∧
    after.blockLocations place = .ok { record with path := place } ∧
    after.resolve text = .ok none ∧
    ∃ target, Path.ofText place = .ok target ∧
      (∀ other, after.pathMap other =
        if other = target then ns.pathMap path
        else if other = path then none
        else ns.pathMap.make target.parent other) ∧
      after = { ns with root := after.root }
  refused : ∀ failure, ended = .error failure → after = ns ∧
    (failure = .quarantine (.inside text directory.text) ∨
      failure = .quarantine (.noFreeName text quarantine.maxSuffix) ∨
      ∃ place parent, quarantine.destinationIn text s ns = .ok place ∧
        Path.parentText place = .ok parent ∧ failure = .quarantine (.noDirectory parent))
  /-- With the directories made, the rename is granted. -/
  granted : ∀ place parent made, quarantine.destinationIn text s ns = .ok place →
    Path.parentText place = .ok parent → (Namespace.mkdirs parent).run ns = (.ok true, made) →
    ((Namespace.rename text place).run made).1 = .ok true

private theorem pathMap_of_movesTo {directory path target other : Path} {after : Namespace}
    (h : ns.MovesTo directory path target after) : after.pathMap other =
      if other = target then ns.pathMap path
      else if other = path then none
      else ns.pathMap.make target.parent other := by
  have hne : target ≠ [] := by
    rintro rfl
    simpa using h.free
  have hsight : after.sight = ns.sight := by
    rw [h.rest_eq]
    exact Namespace.sight_root ns after.root
  rw [Namespace.pathMap, h.node_eq, hsight]
  split_ifs with htarget hpath hup
  · rfl
  · rfl
  · -- on the way there is nothing yet, or a directory
    have hparent := (Path.prefix_parent_iff hne htarget).mpr hup
    rw [PathMap.make]
    rcases hn : ns.node? other with _ | _ | content
    · rw [if_pos ⟨hparent, Namespace.pathMap_eq_none.mpr hn⟩]
      rfl
    · have hmap := Namespace.pathMap_eq_directory.mpr hn
      rw [if_neg (by simp [hmap]), hmap]
      rfl
    · exact absurd hn (h.clear hup)
  · have hparent : ¬ other <+: target.parent := fun hp => hup (hp.trans (List.dropLast_prefix _))
    rw [PathMap.make, if_neg fun hp => hparent hp.1]
    rfl

private theorem blockLocations_of_movesTo {directory path target : Path} {after : Namespace}
    {content : FileNode} (h : ns.MovesTo directory path target after) (hv : target.Valid)
    (hn : ns.node? path = some (.file content)) :
    after.blockLocations target.text =
      .ok { ns.recordOf path content with path := target.text } := by
  have hrecord : after.recordOf target content = ns.recordOf target content := by
    apply Namespace.recordOf_congr
    · intro id _
      rw [h.rest_eq]
    · rw [h.rest_eq]
  rw [Namespace.blockLocations_text after hv, h.node_eq, if_pos rfl, hn]
  dsimp only
  rw [hrecord]
  rfl

private theorem destinationIn_eq_ok (ns : Namespace) (quarantine : Quarantine)
    {directory path : Path}
    {text : String} (hq : Path.ofText quarantine.directory = .ok directory)
    (hp : Path.ofText text = .ok path) (hne : path ≠ []) {s : σ} {place : String}
    (h : quarantine.destinationIn text s ns = .ok place) :
    ∃ names, place = Path.text (directory ++ names) ∧
      (quarantine.destination text).runOn onNamespace s ns = ((.ok place, s), ns) ∧
      ¬ directory <+: path ∧ (ns.FreeBelow directory path → names = path) ∧
      Path.Valid names ∧ names ≠ [] ∧ ns.FreeBelow directory names := by
  rw [destinationIn] at h
  rcases destination_spec ns quarantine hq hp hne s with ⟨cause, hrun, -⟩ | ⟨names, hrun, hspec⟩
  · rw [hrun] at h
    cases h
  · rw [hrun] at h
    obtain rfl := Except.ok.inj h
    exact ⟨names, rfl, hrun, hspec⟩

private theorem rename_granted (h : ns.Valid) (quarantine : Quarantine) {directory path : Path}
    {content : FileNode} {text place parent : String} {s : σ} {made : Namespace}
    (hq : Path.ofText quarantine.directory = .ok directory) (hp : Path.ofText text = .ok path)
    (hn : ns.node? path = some (.file content))
    (hfound : quarantine.destinationIn text s ns = .ok place)
    (hparent : Path.parentText place = .ok parent)
    (hmade : (Namespace.mkdirs parent).run ns = (.ok true, made)) :
    ((Namespace.rename text place).run made).1 = .ok true := by
  obtain ⟨names, rfl, -, hout, hdirect, hnames, hne, hfree⟩ :=
    destinationIn_eq_ok ns quarantine hq hp (Namespace.ne_root_of_file hn) hfound
  have hv := Path.valid_append.mpr ⟨Path.valid_of_ofText hq, hnames⟩
  rw [Path.parentText_text hv, Except.ok.injEq] at hparent
  subst hparent
  rw [Namespace.run_mkdirs_text ns hv.parent] at hmade
  rcases Namespace.run_makeDirectories _ (Path.parent (directory ++ names)) with
    ⟨hc, hrun⟩ | ⟨-, hrun⟩
  · rw [hrun, Prod.mk.injEq] at hmade
    obtain ⟨after, hrename, -⟩ := rename_spec h hp hn hout hv
      ⟨List.prefix_append .., by simp [hne]⟩ hfree.1 (fun hbelow => by rw [hdirect hbelow]) hc
    rw [← hmade.2, hrename]
  · rw [hrun] at hmade
    cases hmade

private theorem AllOrNothing.of_refused {quarantine : Quarantine} {directory path : Path}
    {text : String}
    {record : FileRecord} {s : σ} {cause : QuarantineError}
    (hcause : cause = .inside text directory.text ∨ cause = .noFreeName text quarantine.maxSuffix ∨
      ∃ place parent, quarantine.destinationIn text s ns = .ok place ∧
        Path.parentText place = .ok parent ∧ cause = .noDirectory parent)
    (hnone : (∃ place, quarantine.destinationIn text s ns = .ok place) → ¬ ns.Clear directory)
    (hgranted : ∀ place parent made, quarantine.destinationIn text s ns = .ok place →
      Path.parentText place = .ok parent → (Namespace.mkdirs parent).run ns = (.ok true, made) →
      ((Namespace.rename text place).run made).1 = .ok true) :
    quarantine.AllOrNothing directory path text record s ns (.error (.quarantine cause)) ns where
  moved_iff := by
    simp only [reduceCtorEq, exists_false, false_iff]
    rintro ⟨-, hclear, hfound⟩
    exact hnone hfound @hclear
  moved place hplace := by cases hplace
  refused failure hfailure := by
    obtain rfl := Except.error.inj hfailure
    simpa using hcause
  granted := hgranted

/-- A move of a file either is done as a whole or changes nothing. -/
theorem move_allOrNothing (h : ns.Reachable) (quarantine : Quarantine) {directory path : Path}
    {text : String} {record : FileRecord} (hq : Path.ofText quarantine.directory = .ok directory)
    (hp : Path.ofText text = .ok path) (hfile : ns.blockLocations text = .ok record) (s : σ) :
    ∃ ended after,
      (quarantine.move text).runOn onNamespace s ns = ((ended, s), after) ∧
        quarantine.AllOrNothing directory path text record s ns ended after := by
  have hvalid := h.valid
  have hread := Namespace.readPath_of_ofText hp
  obtain ⟨path', content, hp', hn, rfl⟩ := Namespace.blockLocations_eq_ok.mp hfile
  obtain rfl : path = path' := Except.ok.inj (hread.symm.trans hp')
  have hgranted : ∀ place parent made, quarantine.destinationIn text s ns = .ok place →
      Path.parentText place = .ok parent → (Namespace.mkdirs parent).run ns = (.ok true, made) →
      ((Namespace.rename text place).run made).1 = .ok true :=
    fun _ _ _ => rename_granted hvalid quarantine hq hp hn
  rcases destination_spec ns quarantine hq hp (Namespace.ne_root_of_file hn) s with
    ⟨cause, hrefused, hcause, -⟩ | ⟨names, hrun, hout, hdirect, hnames, hne, hfree⟩
  · refine ⟨.error (.quarantine cause), ns, ?_, .of_refused ?_ ?_ hgranted⟩
    · rw [move, Check.runOn_bind, hrefused]
    · exact hcause.imp_right .inl
    · rintro ⟨place, hplace⟩
      rw [destinationIn, hrefused] at hplace
      cases hplace
  have hv : Path.Valid (directory ++ names) :=
    Path.valid_append.mpr ⟨Path.valid_of_ofText hq, hnames⟩
  have hfound : quarantine.destinationIn text s ns = .ok (Path.text (directory ++ names)) := by
    rw [destinationIn, hrun]
  rcases move_of_found hvalid quarantine hp hn hout hdirect hv hne hfree hrun with
    ⟨hc, hended⟩ | ⟨hc, after, hended, hmoves⟩
  · have hparent := Path.parentText_text hv
    exact ⟨_, ns, hended,
      .of_refused (.inr (.inr ⟨_, _, hfound, hparent, rfl⟩)) (fun _ => hc) hgranted⟩
  refine ⟨_, after, hended, ?moved_iff, ?moved, ?refused, hgranted⟩
  case moved_iff =>
    exact ⟨fun _ => ⟨hout, hc, _, hfound⟩, fun _ => ⟨_, rfl⟩⟩
  case moved =>
    intro place hplace
    obtain rfl := Except.ok.inj hplace
    refine ⟨hfound, blockLocations_of_movesTo hmoves hv hn, ?_, directory ++ names,
      Path.ofText_text hv, fun _ => pathMap_of_movesTo hmoves, hmoves.rest_eq⟩
    have hnot : path ≠ directory ++ names := fun he => hout (he ▸ List.prefix_append ..)
    have hup : ¬ path <+: directory ++ names := fun hup => hmoves.clear hup hn
    rw [Namespace.resolve, hread]
    simp [hmoves.node_eq, hnot]
  case refused =>
    intro failure hfailure
    cases hfailure

/-- A file that is still to go into the crowded quarantine directory. -/
def awaiting : Namespace := crowded.after [.createFile "/a/b" 4 none none none]

private theorem awaiting_reachable : awaiting.Reachable := crowded_reachable.after _

/-- The file `a/b` gets the second ending of its directory, as the first is taken; a quarantine
directory below the file itself cannot be made. -/
theorem move_allOrNothing_of_awaiting :
    (awaiting.Reachable ∧ Path.ofText "//a/b/" = .ok ["a", "b"]) ∧ ∃ record,
      awaiting.blockLocations "//a/b/" = .ok record ∧
      (∃ after, (move { maxSuffix := 3 } "//a/b/" : Check Unit String).runOn onNamespace ()
          awaiting = ((.ok "/lost+found/a.2/b", ()), after) ∧
        after.blockLocations "/lost+found/a.2/b" =
          .ok { record with path := "/lost+found/a.2/b" }) ∧
      ∃ failure, (move { directory := "/a/b/q" } "//a/b/" : Check Unit String).runOn onNamespace ()
        awaiting = ((.error failure, ()), awaiting) := by
  have hp : Path.ofText "//a/b/" = .ok ["a", "b"] := by decide +kernel
  have hq : Path.ofText "/lost+found" = .ok ["lost+found"] := by decide +kernel
  have hbelow : Path.ofText "/a/b/q" = .ok ["a", "b", "q"] := by decide +kernel
  have hfile : awaiting.blockLocations "//a/b/" = .ok
      { path := "/a/b", length := 4, replication := 1
        blocks := [⟨"blk_3", 4, [⟨"n1", 4, true, false⟩], false⟩] } := by decide +kernel
  refine ⟨⟨awaiting_reachable, hp⟩, _, hfile, ?_, ?_⟩
  · have hended : ((move { maxSuffix := 3 } "//a/b/" : Check Unit String).runOn onNamespace ()
        awaiting).1.1 = .ok "/lost+found/a.2/b" := by decide +kernel
    obtain ⟨ended, after, hrun, hmove⟩ :=
      move_allOrNothing awaiting_reachable { maxSuffix := 3 } hq hp hfile ()
    rw [hrun] at hended
    obtain rfl : ended = .ok "/lost+found/a.2/b" := hended
    obtain ⟨-, hmoved, -⟩ := hmove.moved _ rfl
    exact ⟨after, hrun, hmoved⟩
  · have hfails : ((move { directory := "/a/b/q" } "//a/b/" : Check Unit String).runOn onNamespace
        () awaiting).1.1 = .error (.quarantine (.noDirectory "/a/b/q/a")) := by decide +kernel
    obtain ⟨ended, after, hrun, hmove⟩ :=
      move_allOrNothing awaiting_reachable { directory := "/a/b/q" } hbelow hp hfile ()
    rw [hrun] at hfails
    obtain rfl : ended = .error (.quarantine (.noDirectory "/a/b/q/a")) := hfails
    obtain ⟨hsame, -⟩ := hmove.refused _ rfl
    rw [hsame] at hrun
    exact ⟨_, hrun⟩

end BlockFsck.Quarantine
