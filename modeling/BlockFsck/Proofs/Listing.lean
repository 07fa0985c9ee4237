import BlockFsck.Listing
import BlockFsck.Proofs.Health
import BlockFsck.Proofs.Service

/-!
# What a listing lists

With a service that answers from a namespace that nobody else changes, a listing has the damaged
files of its walk and those entries of the service's list that are files in scope (`run_served`).
On the namespace itself these are files each once and in order (`run_spec`). What the same listing
has found before does not matter.
-/

namespace BlockFsck.Listing

open Check (StandsFor)
open Metadata (onNamespace)

variable {τ : Type} {listing : Listing} {ns : Namespace} {root : Path} {quarantine : Option Path}
  {service : Metadata.Service (StateM τ)} {Within : τ → Prop}

/-- What was found are these texts and these malformed files, and the notes know which of the texts
are those of open files. -/
structure Holds (ns : Namespace) (files : List String) (malformed : List Path) (found : Found) :
    Prop where
  files_eq : found.files = files
  malformed_eq : found.notes.malformed = malformed.map Path.text
  open_iff : ∀ text, text ∈ found.notes.openFiles ↔
    text ∈ files ∧ ∃ path, Path.ofText text = .ok path ∧ ns.isOpenAt path = true

private theorem Found.mem_openFiles_add {found : Found} {text other : String} {isOpen : Bool} :
    other ∈ (found.add text isOpen).notes.openFiles ↔
      other ∈ found.notes.openFiles ∨ other = text ∧ isOpen = true := by
  rw [Found.add]
  by_cases hc : text ∈ found.notes.openFiles
  · rw [if_neg (by simp [hc])]
    constructor
    · exact .inl
    · rintro (hmem | ⟨rfl, -⟩)
      · exact hmem
      · exact hc
  · by_cases ho : isOpen = true
    · rw [if_pos (by simp [hc, ho]), List.mem_append, List.mem_singleton]
      simp [ho]
    · rw [if_neg (by simp [ho])]
      simp [ho]

namespace Holds

variable {files : List String} {malformed : List Path} {found : Found}

private theorem empty : Holds ns [] [] {} where
  files_eq := rfl
  malformed_eq := rfl
  open_iff := by simp

private theorem add (h : Holds ns files malformed found) {text : String} {path : Path}
    (ht : Path.ofText text = .ok path) :
    Holds ns (files ++ [text]) malformed (found.add text (ns.isOpenAt path)) where
  files_eq := by rw [Found.add, h.files_eq]
  malformed_eq := h.malformed_eq
  open_iff other := by
    have hself : (∃ path, Path.ofText text = .ok path ∧ ns.isOpenAt path = true) ↔
        ns.isOpenAt path = true := by
      simp [ht]
    rw [Found.mem_openFiles_add, h.open_iff, List.mem_append, List.mem_singleton, or_and_right]
    refine or_congr_right (and_congr_right fun he => ?_)
    rw [he, hself]

private theorem addMalformed (h : Holds ns files malformed found) (path : Path) :
    Holds ns files (malformed ++ [path])
      { found with notes.malformed := found.notes.malformed ++ [path.text] } where
  files_eq := h.files_eq
  malformed_eq := by
    rw [h.malformed_eq, List.map_append]
    rfl
  open_iff := h.open_iff

end Holds

private theorem visit_spec (listing : Listing) (h : ns.Valid) {files : List String}
    {malformed : List Path}
    {found : Found} (hf : Holds ns files malformed found) {path : Path} {node : Node}
    (hn : ns.node? path = some node) :
    ∃ found', (listing.visit ⟨path.text, node.kind⟩).runOn onNamespace found ns =
        ((.ok (), found'), ns) ∧
      Holds ns (files ++ ([path].filter (ns.isDamagedAt listing.openVisible)).map Path.text)
        (malformed ++ [path].filter (ns.isMalformedAt listing.openVisible)) found' := by
  cases node with
  | directory =>
    refine ⟨found, rfl, ?_⟩
    simpa [Namespace.isDamagedAt, Namespace.isMalformedAt, hn] using hf
  | file content =>
    have herror := FileHealth.ofRecord_error (ns.recordOf path content) listing.openVisible
    have hmalformed : ns.isMalformedAt listing.openVisible path = true ↔
        ∃ block ∈ (ns.recordOf path content).judged listing.openVisible, block.length < 0 := by
      simp [Namespace.isMalformedAt, hn]
    rw [visit, Entry.isDirectory, Node.kind, if_neg (by simp), Check.runOn_bind,
      Check.runOn_orIfMissing, Check.runOn_map,
      Check.runOn_blockLocations (h.toIsTree.path_valid hn) hn]
    dsimp only [Except.map]
    cases hj : FileHealth.ofRecord (ns.recordOf path content) listing.openVisible with
    | error cause =>
      have hbad := hmalformed.mpr (herror.mp ⟨cause, hj⟩)
      have hnot : ns.isDamagedAt listing.openVisible path = false := by
        simp [Namespace.isDamagedAt, hn, FileRecord.isDamaged, hj]
      refine ⟨_, rfl, ?_⟩
      simpa [hbad, hnot] using hf.addMalformed path
    | ok health =>
      have hgood : ¬ ns.isMalformedAt listing.openVisible path = true := by
        rw [hmalformed, ← herror, hj]
        simp
      have hdamaged : ns.isDamagedAt listing.openVisible path = health.isCorrupt := by
        simp [Namespace.isDamagedAt, hn, FileRecord.isDamaged, hj]
      dsimp only
      by_cases hc : health.isCorrupt = true
      · have hopen : health.openForWrite = ns.isOpenAt path := by
          rw [(FileHealth.judges_of_ok hj).open_eq hc, Namespace.isOpenAt, hn]
          rfl
        rw [if_pos hc, hopen]
        refine ⟨_, rfl, ?_⟩
        simpa [hgood, hdamaged, hc] using hf.add (Path.ofText_text (h.toIsTree.path_valid hn))
      · rw [if_neg hc]
        refine ⟨found, rfl, ?_⟩
        simpa [hgood, hdamaged, hc] using hf

private theorem gentle (listing : Listing) (h : ns.Valid) :
    Walk.Gentle listing.visit root quarantine fun found ns' =>
      ns' = ns ∧ ∃ files malformed, Holds ns files malformed found where
  valid := by
    rintro _ _ ⟨rfl, -⟩
    exact h
  visits := by
    rintro found _ path node ⟨rfl, files, malformed, hf⟩ hn -
    obtain ⟨found', hrun, hf'⟩ := visit_spec listing h hf hn
    exact ⟨found', _, hrun, ⟨rfl, _, _, hf'⟩, fun _ _ _ => .refl _ _⟩

private theorem visits_spec (listing : Listing) (h : ns.Valid) {visited : List (Path × EntryKind)}
    (hn : ∀ e ∈ visited, ∃ node, ns.node? e.1 = some node ∧ node.kind = e.2)
    {files : List String} {malformed : List Path} {found : Found}
    (hf : Holds ns files malformed found) :
    ∃ found', Check.runOn onNamespace
        (visited.forM fun e => listing.visit ⟨e.1.text, e.2⟩) found ns = ((.ok (), found'), ns) ∧
      Holds ns (files ++
          ((visited.map Prod.fst).filter (ns.isDamagedAt listing.openVisible)).map Path.text)
        (malformed ++ (visited.map Prod.fst).filter (ns.isMalformedAt listing.openVisible))
        found' := by
  induction visited generalizing files malformed found with
  | nil => exact ⟨found, rfl, by simpa using hf⟩
  | cons e visited ih =>
    obtain ⟨node, hnode, hkind⟩ := hn e (List.mem_cons_self ..)
    obtain ⟨found₁, hrun, hf₁⟩ := visit_spec listing h hf hnode
    obtain ⟨found₂, hrest, hf₂⟩ := ih (fun e he => hn e (List.mem_cons_of_mem _ he)) hf₁
    rw [hkind] at hrun
    rw [Check.runOn_forM_cons, hrun]
    refine ⟨found₂, hrest, ?_⟩
    rw [List.map_cons, ← List.singleton_append, List.filter_append, List.filter_append,
      List.map_append, ← List.append_assoc, ← List.append_assoc]
    exact hf₂

/-- The paths of what a walk visits, in its order. -/
structure Visits (ns : Namespace) (root : Path) (quarantine : Option Path) (paths : List Path) :
    Prop where
  ordered : paths.Pairwise Path.Before
  mem_iff : ∀ path, path ∈ paths ↔
    ∃ node, ns.node? path = some node ∧ Walk.Visible root quarantine path node.kind

/-- The texts of the damaged files on a walk through these paths. -/
def foundTexts (listing : Listing) (ns : Namespace) (paths : List Path) : List String :=
  (paths.filter (ns.isDamagedAt listing.openVisible)).map Path.text

private theorem Visits.valid {paths : List Path} (hvisits : Visits ns root quarantine paths)
    (ht : ns.IsTree) {path : Path} (hmem : path ∈ paths) : path.Valid := by
  obtain ⟨node, hn, -⟩ := (hvisits.mem_iff path).mp hmem
  exact ht.path_valid hn

theorem Visits.mem_file {paths : List Path} (hvisits : Visits ns root quarantine paths) {path : Path}
    {content : FileNode} (hn : ns.node? path = some (.file content)) :
    path ∈ paths ↔ Walk.Scope root quarantine path := by
  rw [hvisits.mem_iff]
  constructor
  · rintro ⟨node, -, hv⟩
    exact hv.1
  · intro hscope
    exact ⟨_, hn, hscope, by simp [Node.kind]⟩

/-- The text of a file is found if the file is in scope and damaged. -/
theorem Visits.mem_foundTexts {paths : List Path} (hvisits : Visits ns root quarantine paths)
    (h : ns.Valid) {path : Path} {content : FileNode}
    (hn : ns.node? path = some (.file content)) :
    path.text ∈ listing.foundTexts ns paths ↔
      Walk.Scope root quarantine path ∧ ns.isDamagedAt listing.openVisible path = true := by
  rw [← hvisits.mem_file hn, ← List.mem_filter, foundTexts, List.mem_map]
  constructor
  · rintro ⟨other, hother, he⟩
    have hvalid := hvisits.valid h.toIsTree (List.mem_filter.mp hother).1
    rwa [← (Path.text_inj hvalid (h.toIsTree.path_valid hn)).mp he]
  · exact fun hmem => ⟨path, hmem, rfl⟩

theorem Visits.foundTexts_nodup {paths : List Path} (hvisits : Visits ns root quarantine paths)
    (ht : ns.IsTree) (listing : Listing) : (listing.foundTexts ns paths).Nodup := by
  have hpaths := (Path.nodup_of_before hvisits.ordered).sublist
    (List.filter_sublist (p := ns.isDamagedAt listing.openVisible))
  exact Path.nodup_texts hpaths fun path hmem => hvisits.valid ht (List.mem_filter.mp hmem).1

/-- The walk of a listing misses its root or breaks off, or has the damaged and the malformed files
among those that it visits. -/
theorem walk_spec (listing : Listing) (h : ns.Valid) (hr : root.Valid)
    (hqv : ∀ q ∈ quarantine, q.Valid) (depth : Nat) :
    let ended :=
      (Walk.run ⟨root.text, quarantine.map Path.text⟩ depth listing.visit).runOn onNamespace {} ns
    (ns.node? root = none ∧ ended = ((.error (.pathNotFound root.text), {}), ns)) ∨
      (∃ below node s, ns.node? below = some node ∧ root.length + depth ≤ below.length ∧
        ended = ((.error (.tooDeep below.text), s), ns)) ∨
      ∃ paths found, ns.node? root ≠ none ∧ ended = ((.ok (), found), ns) ∧
        Visits ns root quarantine paths ∧
        Holds ns (listing.foundTexts ns paths)
          (paths.filter (ns.isMalformedAt listing.openVisible)) found := by
  intro ended
  have hroot := Path.ofText_text hr
  rcases Walk.run_tour (gentle listing h) hroot hqv depth ⟨rfl, [], [], .empty⟩ with
    hnone | ⟨s, ns', below, node, ⟨rfl, -⟩, hbelow, hdeep, hrun⟩ |
    ⟨visited, s, ns', hsome, hrun, htour⟩
  · exact .inl hnone
  · exact .inr (.inl ⟨below, node, s, hbelow, hdeep, hrun⟩)
  have hsteady : ∀ {found after}, (after = ns ∧ ∃ files malformed, Holds ns files malformed found) →
      after = ns := And.left
  obtain ⟨rfl, -⟩ := htour.keeps
  obtain ⟨found, hvisits, hf⟩ := visits_spec listing h (htour.present hsteady) .empty
  rw [htour.runs, Prod.mk.injEq, Prod.mk.injEq] at hvisits
  obtain ⟨⟨-, rfl⟩, -⟩ := hvisits
  exact .inr (.inr ⟨visited.map Prod.fst, s, hsome, hrun,
    ⟨List.pairwise_map.mpr htour.ordered, htour.mem_paths_iff hsteady⟩, hf⟩)

private theorem standsFor_visit (listing : Listing) (hs : service.ServesFiles Within ns)
    (ht : ns.IsTree)
    {path : Path} {node : Node} (hn : ns.node? path = some node) :
    StandsFor service Within ns (listing.visit ⟨path.text, node.kind⟩) := by
  cases node with
  | directory => exact .pure ()
  | file content =>
    have hread := Path.ofText_text (ht.path_valid hn)
    have hnamespace := (Metadata.servesFiles_onNamespace ns).blockLocations hread hn
    have hrecord : StandsFor service Within ns
        (Check.query (.blockLocations path.text) : Check Found FileRecord) :=
      .query (hs.blockLocations hread hn) hnamespace
    refine ((hrecord.map some).orIfMissing none).bind fun _ found _ _ => ?_
    cases found with
    | none => exact .pure ()
    | some record =>
      dsimp only
      cases FileHealth.ofRecord record listing.openVisible with
      | error malformed => exact (StandsFor.log hs.toServesTree _).bind fun _ _ _ _ => .modify _
      | ok health =>
        dsimp only
        split_ifs
        · exact .modify _
        · exact .pure ()

/-- The paths on the list of the service, in its order. -/
def indexed (ns : Namespace) : List Path :=
  sortedBy Path.text ((ns.files.filter fun e => ns.hasCorruptBlock (.file e.2)).map Prod.fst)

theorem corruptFiles_eq (h : ns.Valid) : ns.corruptFiles = (indexed ns).map Path.text := by
  have hvalid : ∀ rest, ns.tree.lookup rest ≠ none → Path.Valid ([] ++ rest) := by
    intro rest hrest
    obtain ⟨found, hfound⟩ := Option.ne_none_iff_exists'.mp hrest
    exact h.path_valid (Option.map_eq_some_iff.mpr ⟨found, hfound, rfl⟩)
  have hfiles : ns.tree.files "/" = ns.files.map fun e => (e.1.text, e.2) :=
    h.names_nodup.files_text hvalid
  rw [indexed, ← sortedTexts_map, Namespace.corruptFiles, hfiles, List.filter_map, List.map_map,
    List.map_map]
  rfl

theorem mem_indexed (h : ns.Valid) {path : Path} :
    path ∈ indexed ns ↔ ∃ content, ns.node? path = some (.file content) ∧
      ns.hasCorruptBlock (.file content) = true := by
  rw [indexed, mem_sortedBy, List.mem_map]
  constructor
  · rintro ⟨⟨_, content⟩, hmem, rfl⟩
    obtain ⟨hmem, hc⟩ := List.mem_filter.mp hmem
    exact ⟨content, h.mem_files.mp hmem, hc⟩
  · rintro ⟨content, hn, hc⟩
    exact ⟨_, List.mem_filter.mpr ⟨h.mem_files.mpr hn, hc⟩, rfl⟩

theorem indexed_nodup (h : ns.Valid) : (indexed ns).Nodup := by
  rw [indexed, (sortedBy_perm _).nodup_iff]
  exact h.files_nodup.sublist (List.filter_sublist.map Prod.fst)

/-- The listing takes a path from the list: it is below the root and not in the quarantine
directory, unless the root is in there, and open files are not to be left out or it is not open. -/
def isTaken (listing : Listing) (root : Path) (quarantine : Option Path) (ns : Namespace)
    (path : Path) : Bool :=
  path.isUnder root && quarantine.all (fun q => root.isUnder q || !path.isUnder q) &&
    (!ns.isOpenAt path || listing.openVisible)

theorem isTaken_iff {q path : Path} : listing.isTaken root (some q) ns path = true ↔
    root <+: path ∧ (q <+: root ∨ ¬ q <+: path) ∧
      (ns.isOpenAt path = false ∨ listing.openVisible = true) := by
  rw [isTaken, Option.all_some, Bool.and_eq_true, Bool.and_eq_true, Bool.or_eq_true,
    Bool.or_eq_true, Bool.not_eq_true', Bool.not_eq_true', ← Bool.not_eq_true (path.isUnder q),
    Path.isUnder_iff, Path.isUnder_iff, Path.isUnder_iff, and_assoc]

theorem isTaken_iff_forall : listing.isTaken root quarantine ns path = true ↔
    root <+: path ∧ (∀ q ∈ quarantine, q <+: root ∨ ¬ q <+: path) ∧
      (ns.isOpenAt path = false ∨ listing.openVisible = true) := by
  cases quarantine with
  | none => simp [isTaken, Path.isUnder_iff]
  | some q => simp [isTaken_iff]

/-- The listing adds a text of the list to the files found by the walk: it is none of those, as it is
written, and stands for a file that the listing takes. -/
def isAdded (listing : Listing) (root : Path) (quarantine : Option Path) (ns : Namespace)
    (walked : List String) (text : String) : Bool :=
  !walked.contains text && (Path.ofText text).toOption.any fun path =>
    (ns.node? path).map Node.kind == some .file && listing.isTaken root quarantine ns path

theorem isAdded_iff {walked : List String} {text : String} :
    listing.isAdded root quarantine ns walked text = true ↔ text ∉ walked ∧
      ∃ path content, Path.ofText text = .ok path ∧ ns.node? path = some (.file content) ∧
        listing.isTaken root quarantine ns path = true := by
  have hfile : ∀ path, (ns.node? path).map Node.kind = some .file ↔
      ∃ content, ns.node? path = some (.file content) := by
    intro path
    cases ns.node? path with
    | none => simp
    | some node => cases node <;> simp [Node.kind]
  rw [isAdded, Bool.and_eq_true]
  refine and_congr (by simp) ?_
  cases ht : Path.ofText text with
  | error e => simp [Except.toOption]
  | ok path =>
    simp only [Except.toOption, Option.any_some, Bool.and_eq_true, beq_iff_eq, hfile, Except.ok.injEq]
    constructor
    · rintro ⟨⟨content, hn⟩, htaken⟩
      exact ⟨path, content, rfl, hn, htaken⟩
    · rintro ⟨_, content, rfl, hn, htaken⟩
      exact ⟨⟨content, hn⟩, htaken⟩

private theorem isLeftOut_spec (hq : listing.quarantine.mapM Path.ofText = .ok quarantine)
    {inside : Bool}
    (hi : ∀ q ∈ quarantine, inside = root.isUnder q) {text : String} {path : Path}
    (hread : Path.ofText text = .ok path) (s : Found) (t : τ) :
    (listing.isLeftOut inside text).runOn service s t =
      ((.ok !(quarantine.all fun q => root.isUnder q || !path.isUnder q), s), t) := by
  rw [isLeftOut]
  rcases Path.mapM_ofText_eq_ok.mp hq with ⟨hgiven, rfl⟩ | ⟨given, q, hgiven, rfl, hgivenRead⟩
  · rw [hgiven]
    rfl
  · rw [hgiven, hi q rfl]
    simp only [Path.ne_empty_of_ofText hgivenRead, false_or, Option.all_some]
    by_cases hr : root.isUnder q = true
    · rw [if_pos hr, hr]
      rfl
    · rw [if_neg hr, Path.textIsUnder_of_ofText hread hgivenRead, Check.runOn_ofPath_ok]
      simp [hr]

private theorem currentRecord_spec (hs : service.ServesFiles Within ns) {text : String}
    {path : Path}
    (hread : Path.ofText text = .ok path) (s : Found) {t : τ} (hw : Within t) :
    ∃ t', (currentRecord text).runOn service s t =
      ((.ok (match ns.node? path with
        | some (.file content) => some (ns.recordOf path content)
        | _ => none), s), t') ∧ Within t' := by
  obtain ⟨t₁, hresolve, hw₁⟩ := Check.runOn_query (hs.resolve hread) s hw
  rw [currentRecord, Check.runOn_bind, hresolve]
  cases hn : ns.node? path with
  | none => exact ⟨t₁, rfl, hw₁⟩
  | some node =>
    cases node with
    | directory => exact ⟨t₁, rfl, hw₁⟩
    | file content =>
      obtain ⟨t₂, hlocate, hw₂⟩ := Check.runOn_query (hs.blockLocations hread hn) s hw₁
      refine ⟨t₂, ?_, hw₂⟩
      change (Check.orIfMissing (some <$> Check.query (.blockLocations text)) none).runOn
        service s t₁ = _
      rw [Check.runOn_orIfMissing, Check.runOn_map, hlocate]
      rfl

private theorem visitListed_spec (walked : List String) (hs : service.ServesFiles Within ns)
    (hr : root.Valid) (hq : listing.quarantine.mapM Path.ofText = .ok quarantine) {inside : Bool}
    (hi : ∀ q ∈ quarantine, inside = root.isUnder q) {files : List String} {malformed : List Path}
    {found : Found} (hf : Holds ns files malformed found) {text : String} {path : Path}
    (hread : Path.ofText text = .ok path) {t : τ} (hw : Within t) :
    ∃ found' t', (listing.visitListed root.text inside walked text).runOn service found t =
        ((.ok (), found'), t') ∧ Within t' ∧
      Holds ns (files ++ [text].filter (listing.isAdded root quarantine ns walked)) malformed
        found' := by
  rw [visitListed]
  by_cases hwalked : text ∈ walked
  · rw [if_pos (by simpa using hwalked)]
    exact ⟨found, t, rfl, hw, by simpa [isAdded, hwalked] using hf⟩
  rw [if_neg (by simpa using hwalked), Check.runOn_bind,
    Path.textIsUnder_of_ofText hread (Path.ofText_text hr), Check.runOn_ofPath_ok]
  dsimp only
  -- whatever stands in the way leaves the text out
  have hkept : listing.isAdded root quarantine ns walked text = false →
      Holds ns (files ++ [text].filter (listing.isAdded root quarantine ns walked)) malformed
        found := by
    intro hnot
    simpa [hnot] using hf
  have hread' : (Path.ofText text).toOption = some path := by
    rw [hread]
    rfl
  by_cases hu : path.isUnder root = true
  · rw [if_neg (by simp [hu]), Check.runOn_bind, isLeftOut_spec hq hi hread]
    dsimp only
    by_cases hl : (quarantine.all fun q => root.isUnder q || !path.isUnder q) = true
    · obtain ⟨t', hrecord, hw'⟩ := currentRecord_spec hs hread found hw
      rw [if_neg (by simp [hl]), Check.runOn_bind, hrecord]
      cases hn : ns.node? path with
      | none => exact ⟨found, t', rfl, hw', hkept (by simp [isAdded, hread', hn])⟩
      | some node =>
        cases node with
        | directory =>
          exact ⟨found, t', rfl, hw', hkept (by simp [isAdded, hread', hn, Node.kind])⟩
        | file content =>
          have hopen : (ns.recordOf path content).openForWrite = ns.isOpenAt path := by
            rw [Namespace.isOpenAt, hn]
            rfl
          dsimp only
          rw [hopen]
          by_cases ho : (!ns.isOpenAt path || listing.openVisible) = true
          · rw [if_pos ho]
            refine ⟨_, t', rfl, hw', ?_⟩
            rw [List.filter_cons_of_pos
              (by simp [isAdded, hwalked, hread', hn, Node.kind, isTaken, hu, hl, ho])]
            exact hf.add hread
          · rw [if_neg ho]
            exact ⟨found, t', rfl, hw', hkept (by simp [isAdded, hread', isTaken, ho])⟩
    · rw [if_pos (by simp [hl])]
      exact ⟨found, t, rfl, hw, hkept (by simp [isAdded, hread', isTaken, hl])⟩
  · rw [if_pos (by simp [hu])]
    exact ⟨found, t, rfl, hw, hkept (by simp [isAdded, hread', isTaken, hu])⟩

private theorem allListed_spec (walked : List String) (hs : service.ServesFiles Within ns)
    (hr : root.Valid) (hq : listing.quarantine.mapM Path.ofText = .ok quarantine) {inside : Bool}
    (hi : ∀ q ∈ quarantine, inside = root.isUnder q) {index : List String}
    (hindex : ∀ text ∈ index, ∃ path, Path.ofText text = .ok path) {files : List String}
    {malformed : List Path} {found : Found} (hf : Holds ns files malformed found) {t : τ}
    (hw : Within t) :
    ∃ found' t', Check.runOn service (index.forM (listing.visitListed root.text inside walked))
        found t = ((.ok (), found'), t') ∧ Within t' ∧
      Holds ns (files ++ index.filter (listing.isAdded root quarantine ns walked)) malformed
        found' := by
  induction index generalizing files found t with
  | nil => exact ⟨found, t, rfl, hw, by simpa using hf⟩
  | cons text index ih =>
    obtain ⟨path, hread⟩ := hindex text (List.mem_cons_self ..)
    obtain ⟨found₁, t₁, hrun, hw₁, hf₁⟩ := visitListed_spec walked hs hr hq hi hf hread hw
    obtain ⟨found₂, t₂, hrest, hw₂, hf₂⟩ :=
      ih (fun text hmem => hindex text (List.mem_cons_of_mem _ hmem)) hf₁ hw₁
    rw [Check.runOn_forM_cons, hrun]
    refine ⟨found₂, t₂, hrest, hw₂, ?_⟩
    rw [← List.singleton_append, List.filter_append, ← List.append_assoc]
    exact hf₂

/-! ## The listing -/

/-- All that is listed after a walk through these paths: the files found, and what is added to them
from the list of the service. -/
def listedTexts (listing : Listing) (ns : Namespace) (root : Path) (quarantine : Option Path)
    (paths : List Path) (index : List String) : List String :=
  listing.foundTexts ns paths ++
    index.filter (listing.isAdded root quarantine ns (listing.foundTexts ns paths))

private theorem runOn_startsInside {α : Type} (hr : root.Valid)
    (hq : listing.quarantine.mapM Path.ofText = .ok quarantine) (next : Bool → Check Found α)
    (s : Found) (t : τ) :
    Check.runOn service (match listing.quarantine with
        | some q => do next (← Check.ofPath (Path.textIsUnder root.text q))
        | none => do next (← pure false)) s t =
      (next (quarantine.any fun q => root.isUnder q)).runOn service s t := by
  rcases Path.mapM_ofText_eq_ok.mp hq with ⟨hgiven, rfl⟩ | ⟨given, q, hgiven, rfl, hread⟩
  · rw [hgiven]
    rfl
  · rw [hgiven]
    dsimp only
    rw [Path.textIsUnder_of_ofText (Path.ofText_text hr) hread, Check.runOn_bind,
      Check.runOn_ofPath_ok]
    rfl

/-- A listing misses its root or breaks off, or it gives in order what its walk has found and what
it has added from the list of the service. -/
theorem run_served (listing : Listing) (h : ns.Valid) (hs : service.ServesFiles Within ns)
    {index : List String} (hreplies : service.Replies Within .corruptFiles index)
    (hindex : ∀ text ∈ index, ∃ path, Path.ofText text = .ok path) {text : String}
    (hroot : Path.ofText text = .ok root)
    (hq : listing.quarantine.mapM Path.ofText = .ok quarantine) (depth : Nat) (before : Found)
    {t : τ} (hw : Within t) :
    let ended := (listing.run depth text).runOn service before t
    (ns.node? root = none ∧
      ∃ s t', Within t' ∧ ended = ((.error (.pathNotFound root.text), s), t')) ∨
    (∃ below node s t', ns.node? below = some node ∧ root.length + depth ≤ below.length ∧
      Within t' ∧ ended = ((.error (.tooDeep below.text), s), t')) ∨
    ∃ paths found t', ns.node? root ≠ none ∧ Within t' ∧
      ended = ((.ok (sortedTexts found.files), found), t') ∧ Visits ns root quarantine paths ∧
      Holds ns (listing.listedTexts ns root quarantine paths index)
        (paths.filter (ns.isMalformedAt listing.openVisible)) found := by
  intro ended
  have hr := Path.valid_of_ofText hroot
  have hqv := Path.valid_of_mapM_ofText hq
  have hnormal : Path.normalize text = .ok root.text := Path.normalize_eq_ok.mpr ⟨root, hroot, rfl⟩
  have hstands : StandsFor service Within ns
      (Walk.run ⟨root.text, quarantine.map Path.text⟩ depth listing.visit) :=
    Walk.standsFor_run hs.toServesTree h.toIsTree (Path.ofText_text hr) _ depth
      (standsFor_visit listing hs h.toIsTree)
  obtain ⟨walkEnded, t₁, honNamespace, hserved, hw₁⟩ := hstands {} t hw
  simp only [ended, run]
  rw [Check.runOn_bind, Walk.make_of_ofText text hq, Check.runOn_ofPath_ok]
  dsimp only
  rw [Check.runOn_bind, hnormal, Check.runOn_ofPath_ok]
  dsimp only
  rw [Check.runOn_bind, Check.runOn_modify]
  dsimp only
  rw [Check.runOn_bind, hserved]
  rcases walk_spec listing h hr hqv depth with ⟨hnone, hrun⟩ | ⟨below, node, s, hbelow, hdeep, hrun⟩ |
    ⟨paths, walked, hsome, hrun, hvisits, hf⟩
  · obtain rfl := (Prod.mk.inj (honNamespace.symm.trans hrun)).1
    exact .inl ⟨hnone, _, t₁, hw₁, rfl⟩
  · obtain rfl := (Prod.mk.inj (honNamespace.symm.trans hrun)).1
    exact .inr (.inl ⟨below, node, s, t₁, hbelow, hdeep, hw₁, rfl⟩)
  obtain rfl := (Prod.mk.inj (honNamespace.symm.trans hrun)).1
  have hi : ∀ q ∈ quarantine, (quarantine.any fun q => root.isUnder q) = root.isUnder q := by
    intro q hmem
    rw [Option.mem_def.mp hmem, Option.any_some]
  obtain ⟨t₂, hquery, hw₂⟩ := Check.runOn_query hreplies walked hw₁
  obtain ⟨found, t₃, hlisted, hw₃, hf'⟩ := allListed_spec walked.files hs hr hq hi hindex hf hw₂
  rw [hf.files_eq, ← listedTexts] at hf'
  refine .inr (.inr ⟨paths, found, t₃, hsome, hw₃, ?_, hvisits, hf'⟩)
  dsimp only
  rw [Check.runOn_bind, Check.runOn_get]
  dsimp only
  refine (runOn_startsInside hr hq _ walked t₁).trans ?_
  rw [Check.runOn_bind, hquery]
  dsimp only
  rw [Check.runOn_bind, hlisted]
  rfl

/-- What a listing finds: the files of its walk and those from the list of the service. -/
structure Finds (listing : Listing) (root : Path) (quarantine : Option Path) (ns : Namespace)
    (files malformed : List Path) : Prop where
  nodup : files.Nodup
  mem_iff : ∀ path, path ∈ files ↔ ∃ content, ns.node? path = some (.file content) ∧
    (Walk.Scope root quarantine path ∧ ns.isDamagedAt listing.openVisible path = true ∨
      ns.hasCorruptBlock (.file content) = true ∧ listing.isTaken root quarantine ns path = true)
  malformed_ordered : malformed.Pairwise Path.Before
  malformed_iff : ∀ path, path ∈ malformed ↔
    Walk.Scope root quarantine path ∧ ns.isMalformedAt listing.openVisible path = true

theorem Finds.file {files malformed : List Path}
    (h : Finds listing root quarantine ns files malformed) {path : Path} (hmem : path ∈ files) :
    ∃ content, ns.node? path = some (.file content) := by
  obtain ⟨content, hn, -⟩ := (h.mem_iff path).mp hmem
  exact ⟨content, hn⟩

/-- The notes know which of the listed files are open. -/
theorem Finds.closed {files malformed paths : List Path} {found : Found}
    (h : Finds listing root quarantine ns files malformed) (hv : ns.Valid)
    (hholds : Holds ns (files.map Path.text) malformed found)
    (hpaths : ∀ path ∈ paths, path ∈ files) :
    (paths.map Path.text).filter (!found.notes.openFiles.contains ·) =
      (paths.filter (!ns.isOpenAt ·)).map Path.text := by
  have hvalid : ∀ {path}, path ∈ files → path.Valid := by
    intro path hmem
    obtain ⟨content, hn⟩ := h.file hmem
    exact hv.toIsTree.path_valid hn
  rw [List.filter_map]
  congr 1
  refine List.filter_congr fun path hmem => ?_
  have hlisted := hpaths path hmem
  rw [Function.comp_apply, Bool.not_inj_iff, Bool.eq_iff_iff, List.contains_iff_mem,
    hholds.open_iff, Path.ofText_text (hvalid hlisted)]
  simp only [Except.ok.injEq, exists_eq_left', and_iff_right_iff_imp]
  exact fun _ => List.mem_map_of_mem hlisted

private theorem finds_of_walked (h : ns.Valid) {paths : List Path}
    (hvisits : Visits ns root quarantine paths) :
    Finds listing root quarantine ns
      (paths.filter (ns.isDamagedAt listing.openVisible) ++ (indexed ns).filter fun path =>
        !(listing.foundTexts ns paths).contains path.text &&
          listing.isTaken root quarantine ns path)
      (paths.filter (ns.isMalformedAt listing.openVisible)) := by
  have hcontains : ∀ {path content}, ns.node? path = some (.file content) →
      ((listing.foundTexts ns paths).contains path.text = true ↔
        Walk.Scope root quarantine path ∧ ns.isDamagedAt listing.openVisible path = true) := by
    intro path content hn
    rw [List.contains_iff_mem, hvisits.mem_foundTexts h hn]
  refine ⟨?_, fun path => ?_, hvisits.ordered.sublist List.filter_sublist, fun path => ?_⟩
  · refine ((Path.nodup_of_before hvisits.ordered).sublist List.filter_sublist).append
      ((indexed_nodup h).sublist List.filter_sublist) fun path hmem hmem' => ?_
    obtain ⟨hindexed, hkept⟩ := List.mem_filter.mp hmem'
    obtain ⟨content, hn, -⟩ := (mem_indexed h).mp hindexed
    obtain ⟨hvisited, hd⟩ := List.mem_filter.mp hmem
    rw [(hcontains hn).mpr ⟨(hvisits.mem_file hn).mp hvisited, hd⟩] at hkept
    simp at hkept
  · rw [List.mem_append, List.mem_filter, List.mem_filter, mem_indexed h]
    constructor
    · rintro (⟨hmem, hd⟩ | ⟨⟨content, hn, hc⟩, hkept⟩)
      · obtain ⟨content, hn, -⟩ := h.isDamagedAt_iff.mp hd
        exact ⟨content, hn, .inl ⟨(hvisits.mem_file hn).mp hmem, hd⟩⟩
      · exact ⟨content, hn, .inr ⟨hc, (Bool.and_eq_true_iff.mp hkept).2⟩⟩
    · rintro ⟨content, hn, ⟨hscope, hd⟩ | ⟨hc, htaken⟩⟩
      · exact .inl ⟨(hvisits.mem_file hn).mpr hscope, hd⟩
      · by_cases hw : (listing.foundTexts ns paths).contains path.text = true
        · exact .inl (((hcontains hn).mp hw).imp_left (hvisits.mem_file hn).mpr)
        · exact .inr ⟨⟨content, hn, hc⟩, by simp only [hw, htaken]; rfl⟩
  · rw [List.mem_filter]
    refine and_congr_left fun hm => ?_
    rw [Namespace.isMalformedAt] at hm
    cases hn : ns.node? path with
    | none => simp [hn] at hm
    | some node =>
      cases node with
      | directory => simp [hn] at hm
      | file content => exact hvisits.mem_file hn

private theorem filter_isAdded (h : ns.Valid) (walked : List String) :
    ns.corruptFiles.filter (listing.isAdded root quarantine ns walked) =
      ((indexed ns).filter fun path =>
        !walked.contains path.text && listing.isTaken root quarantine ns path).map Path.text := by
  rw [corruptFiles_eq h, List.filter_map]
  congr 1
  refine List.filter_congr fun path hmem => ?_
  obtain ⟨content, hn, -⟩ := (mem_indexed h).mp hmem
  simp [isAdded, Path.ofText_text (h.toIsTree.path_valid hn), Except.toOption, hn, Node.kind]

/-- A listing that succeeds gives the files in order, and leaves all else as it was. -/
theorem run_spec (listing : Listing) (h : ns.Valid) {text : String}
    (hroot : Path.ofText text = .ok root)
    (hq : listing.quarantine.mapM Path.ofText = .ok quarantine) (depth : Nat) (before : Found) :
    let ended := (listing.run depth text).runOn onNamespace before ns
    (ns.node? root = none ∧ ∃ s, ended = ((.error (.pathNotFound root.text), s), ns)) ∨
      (∃ below node s, ns.node? below = some node ∧ root.length + depth ≤ below.length ∧
        ended = ((.error (.tooDeep below.text), s), ns)) ∨
      ∃ files malformed found, ns.node? root ≠ none ∧
        ended = ((.ok ((sortedBy Path.text files).map Path.text), found), ns) ∧
        Holds ns (files.map Path.text) malformed found ∧
        Finds listing root quarantine ns files malformed := by
  intro ended
  have hindex : ∀ text ∈ ns.corruptFiles, ∃ path, Path.ofText text = .ok path := by
    intro text hmem
    rw [corruptFiles_eq h] at hmem
    obtain ⟨path, hpath, rfl⟩ := List.mem_map.mp hmem
    obtain ⟨content, hn, -⟩ := (mem_indexed h).mp hpath
    exact ⟨path, Path.ofText_text (h.toIsTree.path_valid hn)⟩
  have hreplies : onNamespace.Replies (· = ns) .corruptFiles ns.corruptFiles := by
    intro t hw
    subst hw
    exact ⟨t, rfl, rfl⟩
  rcases run_served listing h (Metadata.servesFiles_onNamespace ns) hreplies hindex hroot hq depth
      before rfl with ⟨hnone, s, _, rfl, hrun⟩ | ⟨below, node, s, _, hbelow, hdeep, rfl, hrun⟩ |
    ⟨paths, found, _, hsome, rfl, hrun, hvisits, hf⟩
  · exact .inl ⟨hnone, s, hrun⟩
  · exact .inr (.inl ⟨below, node, s, hbelow, hdeep, hrun⟩)
  rw [listedTexts, filter_isAdded h, foundTexts, ← List.map_append] at hf
  refine .inr (.inr ⟨_, _, found, hsome, ?_, hf, finds_of_walked h hvisits⟩)
  rw [← sortedTexts_map, ← hf.files_eq]
  exact hrun

end BlockFsck.Listing
