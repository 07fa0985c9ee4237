import BlockFsck.Proofs.Checker.Effect
import BlockFsck.Proofs.Checker.ListAccount
import BlockFsck.Proofs.Relocation

/-!
# Runs that take turns

Several runs that move corrupt files below the same quarantine directory take turns, call by call,
in any order. What one of them has found out may no longer hold when it acts on it. Still every file
is moved once at most, and what each run tells has come true.
-/

namespace BlockFsck

open Metadata (onNamespace)
open Namespace (oneCorruptFile oneCorruptFile_reachable)

/-- A run on its way: what it has still to do, and the calls it has made. -/
structure Running where
  options : Options
  depth : Nat
  program : Program Metadata (Except Failure Result)
  calls : List Call := []

namespace Running

def start (o : Options) (depth : Nat) : Running := ⟨o, depth, Checker.run o depth, []⟩

/-- The next step of a run, which is one call or a record for the log. -/
def step (running : Running) (ns : Namespace) : Running × Namespace :=
  match running.program with
  | .done _ => (running, ns)
  | .ask (.log _) next => ({ running with program := next () }, ns)
  | .ask (.query q) next =>
    let (reply, after) := (onNamespace.query q).run ns
    ({ running with program := next reply, calls := running.calls ++ [⟨q, ns⟩] }, after)

/-- The result of a run that has come to its end with one. -/
def result? (running : Running) : Option Result :=
  match running.program with
  | .done (.ok result) => some result
  | _ => none

/-- What the run was started with. -/
def started (running : Running) : Options × Nat := (running.options, running.depth)

private theorem started_step (running : Running) (ns : Namespace) :
    (running.step ns).1.started = running.started := by
  obtain ⟨o, depth, program, calls⟩ := running
  cases program with
  | done => rfl
  | ask question next => cases question <;> rfl

end Running

/-- Runs that share a namespace. -/
structure Company where
  runs : List Running
  current : Namespace

namespace Company

def start (ns : Namespace) (starts : List (Options × Nat)) : Company :=
  ⟨starts.map fun e => .start e.1 e.2, ns⟩

/-- The run with that number takes a step. -/
def step (company : Company) (number : Nat) : Company :=
  match company.runs[number]? with
  | none => company
  | some running =>
    let (next, after) := running.step company.current
    ⟨company.runs.set number next, after⟩

/-- The runs take turns by a schedule of their numbers. -/
def run (company : Company) (schedule : List Nat) : Company := schedule.foldl step company

/-- What all runs have done. -/
def deeds (company : Company) : List Deed :=
  company.runs.flatMap fun running => deedsOf running.calls

end Company

variable {quarantine : Path} {start ns : Namespace} {deeds : List Deed}

/-- The files that calls met outside of the quarantine directory were there from the start. -/
def MetFilesOf (quarantine : Path) (start : Namespace) (calls : List Call) : Prop :=
  ∀ call ∈ calls, ∀ path content, ¬ quarantine <+: path →
    call.met.node? path = some (.file content) → start.node? path = some (.file content)

private theorem MetFilesOf.of_hasRead {calls : List Call} (h : MetFilesOf quarantine start calls)
    {path : Path} (hread : HasRead calls path) (hout : ¬ quarantine <+: path) :
    ∃ content, start.node? path = some (.file content) := by
  obtain ⟨hv, -, record, hmem, hpath⟩ := hread
  obtain ⟨call, hcall, other, content, hn, ho, rfl⟩ := exists_of_mem_recordsOf hmem
  obtain rfl := (Path.text_inj ho hv).mp hpath
  exact ⟨content, h call hcall other content hout hn⟩

private theorem Shifted.query (h : Shifted quarantine start deeds ns) {o : Options}
    {calls : List Call}
    (hmet : MetFilesOf quarantine start calls) (hd : o.delete = false) {q : Query}
    (hq : o.Permits quarantine calls q) :
    Shifted quarantine start (deeds ++ (Call.mk q ns).deed?.toList)
      ((onNamespace.query q).run ns).2 := by
  change Shifted quarantine start _ (q.onNamespace.run ns).2
  cases q with
  | resolve | listChildren | blockLocations | corruptFiles =>
    exact (List.append_nil deeds).symm ▸ h
  | mkdirs text =>
    obtain ⟨-, path, rfl, hv, hbelow⟩ := hq
    rw [Call.deed?, Option.toList_none, List.append_nil, Query.onNamespace,
      Namespace.run_mkdirs_text ns hv]
    rcases Namespace.run_makeDirectories _ path with ⟨hclear, hrun⟩ | ⟨-, hrun⟩
    · rw [hrun]
      exact h.withDirectories hv hbelow hclear
    · rw [hrun]
      exact h
  | rename source target =>
    obtain ⟨-, path, place, rfl, rfl, hread, hv, hout, hbelow⟩ := hq
    obtain ⟨content, hfile⟩ := hmet.of_hasRead hread hout
    rw [Call.deed?_rename hread.1 hv, Query.onNamespace, Namespace.run_rename_text ns hread.1 hv]
    split_ifs with hcan
    · exact h.relocate hv hfile hcan hout hbelow
    · rw [Option.toList_none, List.append_nil]
      exact h
  | delete text recursive => exact absurd hq.1 (by simp [hd])

private theorem flatMap_set_perm {α β : Type} {f : α → List β} {xs : List α} {n : Nat} {x y : α}
    {new : List β} (hx : xs[n]? = some x) (hy : f y = f x ++ new) :
    ((xs.set n y).flatMap f).Perm (xs.flatMap f ++ new) := by
  induction xs generalizing n with
  | nil => simp at hx
  | cons head tail ih =>
    cases n with
    | zero =>
      obtain rfl : head = x := by simpa using hx
      rw [List.set_cons_zero, List.flatMap_cons, List.flatMap_cons, hy, List.append_assoc,
        List.append_assoc]
      exact List.perm_append_comm.append_left _
    | succ n =>
      rw [List.getElem?_cons_succ] at hx
      rw [List.set_cons_succ, List.flatMap_cons, List.flatMap_cons, List.append_assoc]
      exact (ih hx).append_left _

/-- A run of the company conducts itself well with what it has still to do. -/
structure Running.Proper (quarantine : Path) (start : Namespace) (running : Running) : Prop where
  moves : running.options.move = true
  conducts : ∃ root, running.options.Names root quarantine ∧
    running.program.Conducts (running.options.Permits quarantine)
      (fun ended after => Checker.Concludes running.options root running.depth after ended)
      running.calls
  met : MetFilesOf quarantine start running.calls

/-- All that the runs have done so far are moves below the quarantine directory. -/
structure Company.Proper (quarantine : Path) (start : Namespace) (company : Company) : Prop where
  runs : ∀ running ∈ company.runs, running.Proper quarantine start
  shifted : Shifted quarantine start company.deeds company.current

private theorem Running.Proper.step {running : Running} (h : running.Proper quarantine start)
    (hs : Shifted quarantine start deeds ns) : ∃ new,
      deedsOf (running.step ns).1.calls = deedsOf running.calls ++ new ∧
      (running.step ns).1.Proper quarantine start ∧
      Shifted quarantine start (deeds ++ new) (running.step ns).2 := by
  obtain ⟨o, depth, program, calls⟩ := running
  obtain ⟨hmoves, ⟨root, hnames, hconducts⟩, hmet⟩ := h
  have hd : o.delete = false := by simpa using fun hdelete => hnames.exclusive ⟨hmoves, hdelete⟩
  cases hconducts with
  | done hended => exact ⟨[], by simp [Running.step], ⟨hmoves, ⟨root, hnames, .done hended⟩, hmet⟩,
      by simpa [Running.step] using hs⟩
  | log hnext => exact ⟨[], by simp [Running.step], ⟨hmoves, ⟨root, hnames, hnext⟩, hmet⟩,
      by simpa [Running.step] using hs⟩
  | @query _ q next hq hnext =>
    refine ⟨(Call.mk q ns).deed?.toList, ?_, ⟨hmoves, ⟨root, hnames, hnext ns hs.valid⟩, ?_⟩,
      hs.query hmet hd hq⟩
    · change deedsOf (calls ++ [⟨q, ns⟩]) = _
      rw [deedsOf_append, deedsOf_singleton]
    · rintro call hmem path content hout hn
      rcases List.mem_append.mp hmem with hmem | hmem
      · exact hmet call hmem path content hout hn
      · rw [List.mem_singleton.mp hmem] at hn
        exact (hs.of_file hn hout).1

namespace Company

private theorem Proper.step {company : Company} (h : company.Proper quarantine start)
    (number : Nat) :
    (company.step number).Proper quarantine start := by
  rw [Company.step]
  cases hrun : company.runs[number]? with
  | none => exact h
  | some running =>
    obtain ⟨new, hdeeds, hnext, hshifted⟩ :=
      (h.runs running (List.mem_of_getElem? hrun)).step h.shifted
    constructor
    · intro other hmem
      rcases List.mem_or_eq_of_mem_set hmem with hmem | rfl
      · exact h.runs other hmem
      · exact hnext
    · exact hshifted.perm (flatMap_set_perm hrun hdeeds).symm

private theorem Proper.run {company : Company} (h : company.Proper quarantine start)
    (schedule : List Nat) : (company.run schedule).Proper quarantine start := by
  induction schedule generalizing company with
  | nil => exact h
  | cons number schedule ih => exact ih (h.step number)

private theorem run_starts (company : Company) (schedule : List Nat) :
    (company.run schedule).runs.map Running.started = company.runs.map Running.started := by
  induction schedule generalizing company with
  | nil => rfl
  | cons number schedule ih =>
    refine (ih (company.step number)).trans ?_
    rw [Company.step]
    cases hrun : company.runs[number]? with
    | none => rfl
    | some running =>
      obtain ⟨hlt, rfl⟩ := List.getElem?_eq_some_iff.mp hrun
      have hbound : number < (company.runs.map Running.started).length := by simpa using hlt
      have hheld : (company.runs.map Running.started)[number] = company.runs[number].started :=
        List.getElem_map ..
      dsimp only
      rw [List.map_set, Running.started_step, ← hheld, List.set_getElem_self]

end Company

/-- Files have moved below the quarantine directory, and nothing has become of any file but that. -/
structure OnlyMoves (quarantine : Path) (before : Namespace) (deeds : List Deed)
    (after : Namespace) : Prop where
  once : (deeds.map Deed.path).Nodup
  moved : ∀ deed ∈ deeds, ∃ path target content, deed = .moved path target ∧
    before.node? path = some (.file content) ∧ after.node? target = some (.file content) ∧
    after.node? path = none ∧ ¬ quarantine <+: path ∧ quarantine <+: target ∧
    target ≠ quarantine ∧ before.node? target = none
  apart : ∀ {path other target}, .moved path target ∈ deeds → .moved other target ∈ deeds →
    path = other
  placed : ∀ {path content}, before.node? path = some (.file content) →
    ∃ place, EndsAt deeds path place ∧ (∀ other, EndsAt deeds path other → other = place) ∧
      after.node? place = some (.file content) ∧
      after.recordOf place content = { before.recordOf path content with path := place.text }
  no_new_file : ∀ {place content}, after.node? place = some (.file content) →
    ∃ path, before.node? path = some (.file content) ∧ EndsAt deeds path place
  one_to_one : ∀ {path other place content others}, before.node? path = some (.file content) →
    before.node? other = some (.file others) → EndsAt deeds path place →
    EndsAt deeds other place → path = other
  rest_kept : after = { before with root := after.root }

private theorem Shifted.onlyMoves (h : Shifted quarantine start deeds ns) :
    OnlyMoves quarantine start deeds ns where
  once := h.once
  moved := by
    intro deed hmem
    obtain ⟨path, target, rfl, hcarried⟩ := h.carried deed hmem
    obtain ⟨content, hstart, hn⟩ := hcarried.file
    exact ⟨path, target, content, rfl, hstart, hn, hcarried.gone, hcarried.outside,
      hcarried.below.1, hcarried.below.2, hcarried.free⟩
  apart := h.apart
  placed := by
    intro path content hstart
    by_cases hmem : path ∈ deeds.map Deed.path
    · obtain ⟨target, hmoved⟩ := h.exists_of_path hmem
      obtain ⟨others, hothers, hn⟩ := (h.carried_of_mem hmoved).file
      rw [Namespace.file_inj hstart hothers] at hn
      refine ⟨target, .inr hmoved, ?_, hn, by rw [h.recordOf_eq]; rfl⟩
      rintro other (⟨-, hnot⟩ | hother)
      · exact absurd hmem hnot
      · exact (Deed.moved.inj (List.inj_on_of_nodup_map h.once hother hmoved rfl)).2
    · refine ⟨path, .inl ⟨rfl, hmem⟩, ?_, ?_, by rw [h.recordOf_eq]; rfl⟩
      · rintro other (⟨rfl, -⟩ | hother)
        · rfl
        · exact absurd (List.mem_map_of_mem hother) hmem
      · rw [h.kept hmem (by simp [hstart]), hstart]
  no_new_file := by
    intro place content hn
    by_cases hs : start.node? place = none
    · rcases h.new hs with hnone | ⟨source, hmoved⟩ | ⟨hd, -⟩
      · rw [hnone] at hn
        cases hn
      · obtain ⟨others, hstart, hplace⟩ := (h.carried_of_mem hmoved).file
        rw [Namespace.file_inj hn hplace] at hstart
        exact ⟨source, hstart, .inr hmoved⟩
      · rw [hd] at hn
        cases hn
    · have hnot : place ∉ deeds.map Deed.path := by
        intro hmem
        obtain ⟨target, hmoved⟩ := h.exists_of_path hmem
        rw [(h.carried_of_mem hmoved).gone] at hn
        cases hn
      exact ⟨place, by rw [← h.kept hnot hs, hn], .inl ⟨rfl, hnot⟩⟩
  one_to_one := by
    rintro path other place content others hn ho (⟨rfl, -⟩ | hmem) (⟨rfl, -⟩ | hmem')
    · rfl
    · rw [(h.carried_of_mem hmem').free] at hn
      cases hn
    · rw [(h.carried_of_mem hmem).free] at ho
      cases ho
    · exact h.apart hmem hmem'
  rest_kept := h.rest_eq

namespace Company

private theorem proper_start (h : ns.Valid) {starts : List (Options × Nat)}
    (hstarts : ∀ e ∈ starts, (∃ raw : Options, raw.validate = .ok e.1) ∧ e.1.move = true ∧
      Path.ofText e.1.quarantine = .ok quarantine) :
    (Company.start ns starts).Proper quarantine ns where
  runs := by
    intro running hmem
    obtain ⟨⟨o, depth⟩, he, rfl⟩ := List.mem_map.mp hmem
    obtain ⟨⟨raw, hvalid⟩, hmoves, hq⟩ := hstarts _ he
    obtain ⟨root, named, hnames⟩ := Options.exists_names hvalid
    rw [hnames.quarantine_eq, Path.ofText_text hnames.quarantine_valid] at hq
    obtain rfl := Except.ok.inj hq
    exact ⟨hmoves, ⟨root, hnames, Checker.conducts_run hnames depth⟩,
      by simp [MetFilesOf, Running.start]⟩
  shifted := by
    have hnone : (Company.start ns starts).deeds = [] := by
      refine List.flatMap_eq_nil_iff.mpr fun running hmem => ?_
      obtain ⟨e, -, rfl⟩ := List.mem_map.mp hmem
      rfl
    rw [hnone]
    exact .nil h

/-- Whatever turns the runs take, they move every file once at most, out of the quarantine directory
never, and each that has a result tells of its own moves. -/
theorem interleaved_moves (hns : ns.Reachable) {starts : List (Options × Nat)}
    (hstarts : ∀ e ∈ starts, (∃ raw : Options, raw.validate = .ok e.1) ∧ e.1.move = true ∧
      Path.ofText e.1.quarantine = .ok quarantine) (schedule : List Nat) {company : Company}
    (hrun : (Company.start ns starts).run schedule = company) :
    company.runs.map Running.started = starts ∧
    OnlyMoves quarantine ns company.deeds company.current ∧
    (∀ running ∈ company.runs, ∀ result, running.result? = some result →
      Checker.Reported running.options result (deedsOf running.calls)) ∧
    company.runs.Pairwise fun one other => ∀ {path target path' target'},
      .moved path target ∈ deedsOf one.calls → .moved path' target' ∈ deedsOf other.calls →
        path ≠ path' ∧ target ≠ target' := by
  have hproper := (proper_start hns.valid hstarts).run schedule
  rw [hrun] at hproper
  have honly := hproper.shifted.onlyMoves
  refine ⟨?_, honly, ?_, ?_⟩
  · rw [← hrun, run_starts, Company.start, List.map_map]
    exact List.map_id starts
  · intro running hmem result hresult
    obtain ⟨root, -, hconducts⟩ := (hproper.runs running hmem).conducts
    rw [Running.result?] at hresult
    split at hresult
    · rename_i hdone
      rw [hdone] at hconducts
      cases hresult
      cases hconducts with
      | done hconcludes =>
        cases hconcludes with
        | verdict _ haccounts => exact haccounts.reported
    · cases hresult
  · have honce := honly.once
    rw [Company.deeds, List.map_flatMap, List.nodup_flatMap] at honce
    refine honce.2.imp_of_mem fun {one other} hone hother hdisjoint => ?_
    intro path target path' target' hmem hmem'
    have hne : path ≠ path' := by
      rintro rfl
      have hsource : path ∈ (deedsOf other.calls).map Deed.path := List.mem_map_of_mem hmem'
      exact hdisjoint (List.mem_map_of_mem hmem) hsource
    refine ⟨hne, ?_⟩
    rintro rfl
    exact hne (honly.apart (List.mem_flatMap.mpr ⟨one, hone, hmem⟩)
      (List.mem_flatMap.mpr ⟨other, hother, hmem'⟩))

/-- Two runs after the same file by turns, of which one lists. -/
def race : Company :=
  (Company.start (oneCorruptFile none 4) [({ path := "/", move := true }, 10),
    ({ path := "/", move := true, listCorrupt := true }, 10)]).run ((List.range 16).map (· % 2))

/-- The second finds the file gone when it is about to move it. -/
theorem interleaved_moves_of_race :
    race.runs.map (fun running => running.result?.map Result.status) =
      [some .corrupt, some .failure] ∧
    race.deeds = [.moved ["a"] ["lost+found", "a"]] ∧
    OnlyMoves ["lost+found"] (oneCorruptFile none 4) race.deeds race.current := by
  refine ⟨by decide +kernel, by decide +kernel, ?_⟩
  refine (interleaved_moves (oneCorruptFile_reachable none 4) ?_ _ rfl).2.1
  have hq : Path.ofText "/lost+found" = .ok ["lost+found"] := by decide +kernel
  intro e hmem
  rcases List.mem_pair.mp hmem with rfl | rfl
  · exact ⟨⟨{ path := "/", move := true }, by decide +kernel⟩, rfl, hq⟩
  · exact ⟨⟨{ path := "/", move := true, listCorrupt := true }, by decide +kernel⟩, rfl, hq⟩

end Company

end BlockFsck
