import Mathlib.Data.List.Dedup
import BlockFsck.Proofs.Enumeration
import BlockFsck.Proofs.Listing

/-!
# Listings and the list of the service

The service's list of corrupt files may say anything. Whatever it says, only files in scope are
listed; but a text of that list is compared, as it is written, with the files of the walk and with
nothing else, so that each file is listed once and in its normal text if and only if the list of the
service has the files that matter once and in their normal texts (`index_tolerated_iff`).
-/

namespace BlockFsck

open Metadata (onNamespace)

variable {τ : Type} {ns : Namespace} {root : Path} {quarantine : Option Path}

namespace Listing

variable {listing : Listing} {index files : List String}

/-- The path is one that may be listed: a file at or below the root, outside the quarantine directory
unless the root is in there, and not open unless open files are asked for. -/
def MayList (listing : Listing) (ns : Namespace) (root : Path) (quarantine : Option Path)
    (path : Path) : Prop :=
  ∃ content, ns.node? path = some (.file content) ∧ root <+: path ∧
    (∀ q ∈ quarantine, q <+: root ∨ ¬ (ns.node? q = some .directory ∧ q <+: path)) ∧
    (content.lease = none ∨ listing.openVisible = true)

/-- Each listed text is the normal one of a file that may be listed, no file is listed twice, and so
the closing sentence counts the files. -/
structure ListsEachOnce (listing : Listing) (ns : Namespace) (root : Path)
    (quarantine : Option Path) (files : List String) : Prop where
  may_list : ∀ text ∈ files, ∃ path : Path, path.text = text ∧
    listing.MayList ns root quarantine path
  once : (files.map Path.names).Nodup
  counted : ∀ path, sentence files.length path =
    sentence (files.map Path.names).dedup.length path

/-- The list of the service has the files that the listing takes from it in their normal texts, and
those of them that the walk has not found no more than once. -/
structure IsTidy (listing : Listing) (ns : Namespace) (root : Path) (quarantine : Option Path)
    (index : List String) : Prop where
  normal : ∀ text ∈ index, ∀ path content, Path.ofText text = .ok path →
    ns.node? path = some (.file content) → listing.isTaken root quarantine ns path = true →
    path.text = text
  once : ∀ path content, ns.node? path = some (.file content) →
    listing.isTaken root quarantine ns path = true →
    ¬ (Walk.Scope root quarantine path ∧ ns.isDamagedAt listing.openVisible path = true) →
    index.count path.text ≤ 1

private theorem mayList_of_walked (h : ns.Valid) {path : Path}
    (hscope : Walk.Scope root quarantine path)
    (hd : ns.isDamagedAt listing.openVisible path = true) :
    listing.MayList ns root quarantine path := by
  obtain ⟨content, hn, -⟩ := h.isDamagedAt_iff.mp hd
  have hvisible : Walk.Visible root quarantine path (Node.file content).kind :=
    ⟨hscope, fun hkind => by simp [Node.kind] at hkind⟩
  obtain ⟨hroot, hq⟩ := (Walk.visible_iff hn).mp hvisible
  exact ⟨content, hn, hroot, hq, h.seen_of_isDamagedAt hn hd⟩

private theorem mayList_of_isTaken {path : Path} {content : FileNode}
    (hn : ns.node? path = some (.file content))
    (htaken : listing.isTaken root quarantine ns path = true) :
    listing.MayList ns root quarantine path := by
  obtain ⟨hroot, hq, hopen⟩ := isTaken_iff_forall.mp htaken
  refine ⟨content, hn, hroot, fun q hmem => (hq q hmem).imp_right fun hout hin => hout hin.2, ?_⟩
  rw [Namespace.isOpenAt, hn] at hopen
  simpa using hopen

private theorem ListsEachOnce.of_nodup
    (hmay : ∀ text ∈ files, ∃ path : Path, path.text = text ∧
      listing.MayList ns root quarantine path)
    (honce : (files.map Path.names).Nodup) : listing.ListsEachOnce ns root quarantine files where
  may_list := hmay
  once := honce
  counted := by
    intro path
    rw [List.dedup_eq_self.mpr honce, List.length_map]

private theorem ListsEachOnce.perm {others : List String} (hp : files.Perm others)
    (h : listing.ListsEachOnce ns root quarantine files) :
    listing.ListsEachOnce ns root quarantine others :=
  .of_nodup (fun text hmem => h.may_list text (hp.mem_iff.mpr hmem))
    ((hp.map Path.names).nodup_iff.mp h.once)

section Sources

variable {paths : List Path} {text : String}

private theorem mem_listedTexts (h : ns.Valid) (hvisits : Visits ns root quarantine paths) :
    text ∈ listing.listedTexts ns root quarantine paths index ↔
      (∃ path content, path.text = text ∧ ns.node? path = some (.file content) ∧
        Walk.Scope root quarantine path ∧ ns.isDamagedAt listing.openVisible path = true) ∨
      text ∈ index ∧ text ∉ listing.foundTexts ns paths ∧
        ∃ path content, Path.ofText text = .ok path ∧ ns.node? path = some (.file content) ∧
          listing.isTaken root quarantine ns path = true := by
  rw [listedTexts, List.mem_append, List.mem_filter, isAdded_iff]
  refine or_congr_left ?_
  constructor
  · intro hfound
    obtain ⟨path, hmem, rfl⟩ := List.mem_map.mp hfound
    obtain ⟨content, hn, -⟩ := h.isDamagedAt_iff.mp (List.mem_filter.mp hmem).2
    exact ⟨path, content, rfl, hn, (hvisits.mem_foundTexts h hn).mp hfound⟩
  · intro hin
    obtain ⟨path, content, rfl, hn, hfound⟩ := hin
    exact (hvisits.mem_foundTexts h hn).mpr hfound

private theorem mayList_of_listed (h : ns.Valid) (hvisits : Visits ns root quarantine paths)
    (hmem : text ∈ listing.listedTexts ns root quarantine paths index) :
    ∃ path, Path.ofText text = .ok path ∧ listing.MayList ns root quarantine path := by
  rcases (mem_listedTexts h hvisits).mp hmem with
    ⟨path, content, rfl, hn, hscope, hd⟩ | ⟨-, -, path, content, hread, hn, htaken⟩
  · exact ⟨path, Path.ofText_text (h.toIsTree.path_valid hn), mayList_of_walked h hscope hd⟩
  · exact ⟨path, hread, mayList_of_isTaken hn htaken⟩

private theorem isTidy_of_listsEachOnce (h : ns.Valid) (hvisits : Visits ns root quarantine paths)
    (honce : listing.ListsEachOnce ns root quarantine
      (listing.listedTexts ns root quarantine paths index)) :
    listing.IsTidy ns root quarantine index where
  normal := by
    intro text hmem path content hread hn htaken
    -- the text is listed, from the one source or the other
    have hlisted : text ∈ listing.listedTexts ns root quarantine paths index := by
      by_cases hw : text ∈ listing.foundTexts ns paths
      · exact List.mem_append_left _ hw
      · exact (mem_listedTexts h hvisits).mpr
          (.inr ⟨hmem, hw, path, content, hread, hn, htaken⟩)
    obtain ⟨other, rfl, found, hother, -⟩ := honce.may_list text hlisted
    rw [Path.ofText_text (h.toIsTree.path_valid hother)] at hread
    rw [Except.ok.inj hread]
  once := by
    intro path content hn htaken hnot
    have hread := Path.ofText_text (h.toIsTree.path_valid hn)
    have hw : path.text ∉ listing.foundTexts ns paths := by
      rw [hvisits.mem_foundTexts h hn]
      exact hnot
    have hadded := isAdded_iff.mpr ⟨hw, path, content, hread, hn, htaken⟩
    have hnodup : (listing.listedTexts ns root quarantine paths index).Nodup :=
      .of_map Path.names honce.once
    have hle := List.nodup_iff_count_le_one.mp (List.nodup_append.mp hnodup).2.1 path.text
    rwa [List.count_filter hadded] at hle

private theorem IsTidy.normal_of_listed (htidy : listing.IsTidy ns root quarantine index)
    (h : ns.Valid)
    (hvisits : Visits ns root quarantine paths)
    (hmem : text ∈ listing.listedTexts ns root quarantine paths index) :
    ∃ path : Path, path.text = text ∧ listing.MayList ns root quarantine path := by
  rcases (mem_listedTexts h hvisits).mp hmem with
    ⟨path, content, rfl, hn, hscope, hd⟩ | ⟨hindex, -, path, content, hread, hn, htaken⟩
  · exact ⟨path, rfl, mayList_of_walked h hscope hd⟩
  · exact ⟨path, htidy.normal text hindex path content hread hn htaken,
      mayList_of_isTaken hn htaken⟩

private theorem IsTidy.listed_nodup (htidy : listing.IsTidy ns root quarantine index) (h : ns.Valid)
    (hvisits : Visits ns root quarantine paths) :
    (listing.listedTexts ns root quarantine paths index).Nodup := by
  refine List.nodup_append'.mpr ⟨hvisits.foundTexts_nodup h.toIsTree listing, ?_, ?_⟩
  · refine List.nodup_iff_count_le_one.mpr fun text => ?_
    by_cases hadded :
        listing.isAdded root quarantine ns (listing.foundTexts ns paths) text = true
    · rw [List.count_filter hadded]
      by_cases hindex : text ∈ index
      · obtain ⟨hw, path, content, hread, hn, htaken⟩ := isAdded_iff.mp hadded
        have htext := htidy.normal text hindex path content hread hn htaken
        rw [← htext, hvisits.mem_foundTexts h hn] at hw
        rw [← htext]
        exact htidy.once path content hn htaken hw
      · rw [List.count_eq_zero.mpr hindex]
        exact Nat.zero_le 1
    · rw [List.count_eq_zero.mpr fun hmem => hadded (List.mem_filter.mp hmem).2]
      exact Nat.zero_le 1
  · intro text hfound hadded
    exact (isAdded_iff.mp (List.mem_filter.mp hadded).2).1 hfound

private theorem listsEachOnce_of_isTidy (h : ns.Valid) (hvisits : Visits ns root quarantine paths)
    (htidy : listing.IsTidy ns root quarantine index) :
    listing.ListsEachOnce ns root quarantine
      (listing.listedTexts ns root quarantine paths index) := by
  have hnormal : ∀ text ∈ listing.listedTexts ns root quarantine paths index,
      ∃ path : Path, path.text = text ∧ listing.MayList ns root quarantine path :=
    fun text hmem => htidy.normal_of_listed h hvisits hmem
  -- texts that are normal differ in their names if they differ at all
  refine .of_nodup hnormal ((htidy.listed_nodup h hvisits).map_on ?_)
  intro text hmem other hother he
  obtain ⟨path, rfl, content, hn, -⟩ := hnormal text hmem
  obtain ⟨path', rfl, content', hn', -⟩ := hnormal other hother
  rw [Path.names_text (h.toIsTree.path_valid hn), Path.names_text (h.toIsTree.path_valid hn')] at he
  rw [he]

end Sources

private theorem sortedTexts_perm (texts : List String) : (sortedTexts texts).Perm texts :=
  sortedBy_perm texts

/-- With a service that answers from the tree of a namespace and has any list of corrupt files, a
listing lists only files that may be listed, and each of them once and in its normal text if and only
if the list is tidy. -/
theorem index_tolerated_iff {service : Metadata.Service (StateM τ)} {Within : τ → Prop}
    (listing : Listing) (hns : ns.Reachable) (hs : service.ServesFiles Within ns)
    (hreplies : service.Replies Within .corruptFiles index)
    (hindex : ∀ text ∈ index, ∃ path, Path.ofText text = .ok path) {text : String}
    (hroot : Path.ofText text = .ok root) (hthere : ns.node? root ≠ none)
    (hq : listing.quarantine.mapM Path.ofText = .ok quarantine) {depth : Nat}
    (hdepth : ns.tree.height < depth) (before : Found) {t : τ} (hw : Within t) :
    ∃ files found t', (listing.run depth text).runOn service before t = ((.ok files, found), t') ∧
      (∀ text ∈ files, ∃ path, Path.ofText text = .ok path ∧
        listing.MayList ns root quarantine path) ∧
      (listing.ListsEachOnce ns root quarantine files ↔
        listing.IsTidy ns root quarantine index) := by
  have h := hns.valid
  rcases run_served listing h hs hreplies hindex hroot hq depth before hw with
    ⟨hnone, -⟩ | ⟨below, node, _, _, hbelow, hdeep, -⟩ |
    ⟨paths, found, t', -, -, hrun, hvisits, hf⟩
  · exact absurd hnone hthere
  · have hshort := Namespace.length_le_height hbelow
    omega
  have hperm := sortedTexts_perm found.files
  rw [hf.files_eq] at hperm
  refine ⟨_, found, t', hrun, ?_, ?_, ?_⟩
  · intro text hmem
    exact mayList_of_listed h hvisits (hperm.mem_iff.mp (hf.files_eq ▸ hmem))
  · intro honce
    exact isTidy_of_listsEachOnce h hvisits (.perm hperm (hf.files_eq ▸ honce))
  · intro htidy
    rw [hf.files_eq]
    exact (listsEachOnce_of_isTidy h hvisits htidy).perm hperm.symm

/-- One file of which nothing is wrong. -/
def sound : Namespace :=
  (Namespace.empty 4 1 ["n1"]).after [.createFile "/a" 4 (some 1) none none]

private theorem sound_reachable : sound.Reachable := ⟨4, 1, ["n1"], _, rfl⟩

/-- The file is on the list of the service, once and in its normal text, beside texts that stand for
no file, one of them twice. -/
theorem index_tolerated_iff_of_stale :
    (Path.ofText "/" = .ok [] ∧ sound.node? [] ≠ none ∧
      (some "/lost+found").mapM Path.ofText = .ok (some ["lost+found"]) ∧
      sound.tree.height < 10) ∧
    ((run {} 10 "/").runOn (Metadata.withIndex ["//gone/", "/a", "//gone/"]) {} sound).1.1 =
      .ok ["/a"] ∧
    ListsEachOnce {} sound [] (some ["lost+found"]) ["/a"] := by
  have hroot : Path.ofText "/" = .ok [] := by decide +kernel
  have hthere : sound.node? [] ≠ none := by decide +kernel
  have hq : (some "/lost+found").mapM Path.ofText = .ok (some ["lost+found"]) := by decide +kernel
  have hdepth : sound.tree.height < 10 := by decide +kernel
  have hgone : Path.ofText "//gone/" = .ok ["gone"] := by decide +kernel
  have ha : Path.ofText "/a" = .ok ["a"] := by decide +kernel
  have hnone : sound.node? ["gone"] = none := by decide +kernel
  have hlisted : ((run {} 10 "/").runOn (Metadata.withIndex ["//gone/", "/a", "//gone/"]) {}
    sound).1.1 = .ok ["/a"] := by decide +kernel
  obtain ⟨files, found, t', hrun, -, hiff⟩ := index_tolerated_iff {} sound_reachable
    (Metadata.servesFiles_withIndex ["//gone/", "/a", "//gone/"] sound)
    (Metadata.replies_withIndex ["//gone/", "/a", "//gone/"] sound) (by simp [hgone, ha]) hroot
    hthere hq hdepth {} rfl
  refine ⟨⟨hroot, hthere, hq, hdepth⟩, hlisted, ?_⟩
  rw [hrun] at hlisted
  obtain rfl : files = ["/a"] := Except.ok.inj hlisted
  refine hiff.mpr ⟨?_, ?_⟩
  · intro text hmem path content hread hn _
    simp only [List.mem_cons, List.not_mem_nil, or_false] at hmem
    rcases hmem with rfl | rfl | rfl
    · simp [Except.ok.inj (hread.symm.trans hgone), hnone] at hn
    · rw [Except.ok.inj (hread.symm.trans ha)]
      decide +kernel
    · simp [Except.ok.inj (hread.symm.trans hgone), hnone] at hn
  · intro path content hn _ _
    have hne : path.text ≠ "//gone/" := by
      intro he
      have hread := Path.ofText_text (sound_reachable.valid.toIsTree.path_valid hn)
      rw [he, hgone] at hread
      simp [← Except.ok.inj hread, hnone] at hn
    calc List.count path.text ["//gone/", "/a", "//gone/"]
        = List.count path.text ["/a"] := by simp [List.count_cons, Ne.symm hne]
      _ ≤ 1 := List.count_le_length

/-- A file that the service has on its list twice is listed twice. -/
theorem repeated_entry_listed_twice : ∃ files found t',
    (Metadata.withIndex ["/a", "/a"]).ServesFiles (· = sound) sound ∧
      (Metadata.withIndex ["/a", "/a"]).Replies (· = sound) .corruptFiles ["/a", "/a"] ∧
      (∀ text ∈ ["/a", "/a"], Path.ofText text = .ok ["a"]) ∧
      (run {} 10 "/").runOn (Metadata.withIndex ["/a", "/a"]) {} sound =
        ((.ok files, found), t') ∧
      files = ["/a", "/a"] ∧ ¬ ListsEachOnce {} sound [] (some ["lost+found"]) files := by
  have hroot : Path.ofText "/" = .ok [] := by decide +kernel
  have hq : (some "/lost+found").mapM Path.ofText = .ok (some ["lost+found"]) := by decide +kernel
  have ha : ∀ text ∈ ["/a", "/a"], Path.ofText text = .ok ["a"] := by decide +kernel
  have hok : ((run {} 10 "/").runOn (Metadata.withIndex ["/a", "/a"]) {} sound).1.1.isOk = true := by
    decide +kernel
  have hfiles : ((run {} 10 "/").runOn (Metadata.withIndex ["/a", "/a"]) {} sound).1.2.files =
      ["/a", "/a"] := by decide +kernel
  have hserves := Metadata.servesFiles_withIndex ["/a", "/a"] sound
  have hreplies := Metadata.replies_withIndex ["/a", "/a"] sound
  rcases run_served {} sound_reachable.valid hserves hreplies (fun text hmem => ⟨_, ha text hmem⟩)
    hroot hq 10 {} rfl with ⟨-, s, t', -, hrun⟩ | ⟨_, _, s, t', -, -, -, hrun⟩ |
    ⟨_, found, t', -, -, hrun, -⟩
  · rw [hrun] at hok
    cases hok
  · rw [hrun] at hok
    cases hok
  rw [hrun] at hfiles
  have hsorted : sortedTexts found.files = ["/a", "/a"] := by
    rw [hfiles]
    exact sortedBy_eq_self (by simp)
  refine ⟨_, found, t', hserves, hreplies, ha, hrun, hsorted, fun honce => ?_⟩
  rw [hsorted] at honce
  simpa using honce.once

end Listing

end BlockFsck
