import BlockFsck.Config.Disk
import BlockFsck.Proofs.Path
import BlockFsck.Proofs.Table
import Mathlib.Data.List.Induction

/-!
# What a rename on disk leaves

A path leads through places, and with each place it leads through all above it. A file that is
renamed within its directory can therefore be read under its new name, whatever lay there before.
-/

namespace BlockFsck

namespace Table

variable {κ ν : Type} [DecidableEq κ]

private theorem getIn_map_key (rename : κ → κ) {k l : κ} {es : List (κ × ν)}
    (h : ∀ e ∈ es, rename e.1 = k ↔ e.1 = l) :
    getIn k (es.map fun e => (rename e.1, e.2)) = getIn l es := by
  induction es with
  | nil => rfl
  | cons e es ih =>
    have hfirst := h e List.mem_cons_self
    have hrest := ih fun other hmem => h other (List.mem_cons_of_mem e hmem)
    rw [List.map_cons, getIn, getIn, hrest]
    simp only [hfirst]

private theorem ne_of_mem_erase {t : Table κ ν} {k : κ} {e : κ × ν} (h : e ∈ (t.erase k).entries) :
    e.1 ≠ k := by
  intro hk
  have hkey : k ∈ (t.erase k).keys := List.mem_map.mpr ⟨e, h, hk⟩
  have hnone : (t.erase k).get? k = none := by rw [get?_erase, if_pos rfl]
  exact get?_eq_none_iff.mp hnone hkey

end Table

namespace Disk

variable {disk after : Disk} {path source target place : Path} {bytes : ByteArray}

private theorem followed_append (path : Path) (name : String) : followed (path ++ [name]) =
    if name = ".." then (followed path).dropLast else followed path ++ [name] := by
  simp [followed]

private theorem exists_followed_take {above : Path} (h : above <+: followed path) :
    ∃ n ≤ path.length, followed (path.take n) = above := by
  induction path using List.reverseRecOn with
  | nil =>
    have hroot : above = [] := List.prefix_nil.mp h
    exact ⟨0, le_refl _, hroot.symm⟩
  | append_singleton path name ih =>
    have hearlier : above <+: followed path →
        ∃ n ≤ (path ++ [name]).length, followed ((path ++ [name]).take n) = above := by
      intro hprefix
      obtain ⟨n, hn, habove⟩ := ih hprefix
      refine ⟨n, by simp; omega, ?_⟩
      rw [List.take_append_of_le_length hn, habove]
    rw [followed_append] at h
    split_ifs at h with hup
    · exact hearlier (h.trans (List.dropLast_prefix _))
    · cases List.prefix_concat_iff.mp h with
      | inl hend =>
        refine ⟨(path ++ [name]).length, le_refl _, ?_⟩
        rw [List.take_length, followed_append, if_neg hup, hend]
      | inr hprefix => exact hearlier hprefix

private theorem mem_dropLast_places : place ∈ (places path).dropLast ↔
    ∃ n < path.length, followed (path.take n) = place := by
  simp [places, List.range_succ]

private theorem dropLast_places (hne : path ≠ []) :
    (places path).dropLast = places path.parent := by
  have hlength : path.parent.length + 1 = path.length := by
    have hpos := List.length_pos_iff.mpr hne
    rw [Path.parent, List.length_dropLast]
    omega
  have hsame : ∀ n ∈ List.range path.length, path.take n = path.parent.take n := by
    intro n hn
    have hlt := List.mem_range.mp hn
    rw [Path.parent, List.dropLast_eq_take, List.take_take, Nat.min_eq_left (by omega)]
  rw [places, places, List.range_succ, List.map_append, List.map_append, List.map_singleton,
    List.map_singleton, List.dropLast_concat, List.map_map, List.map_map, hlength]
  exact List.map_congr_left fun n hn => congrArg followed (hsame n hn)

theorem node?_eq_some {node : DiskNode} : disk.node? path = some node ↔
    (∀ place ∈ (places path).dropLast, disk.nodes.get? place = some .directory) ∧
      disk.nodes.get? (followed path) = some node := by
  rw [node?]
  simp

/-- No directory has to be made for what can be reached. -/
theorem makeDirectories_parent (hne : path ≠ [])
    (hway : ∀ place ∈ (places path).dropLast, disk.nodes.get? place = some .directory) :
    disk.makeDirectories path.parent = .ok disk := by
  rw [dropLast_places hne] at hway
  rw [makeDirectories]
  generalize places path.parent = way at hway
  induction way with
  | nil => rfl
  | cons place rest ih =>
    rw [List.foldlM_cons, hway place List.mem_cons_self]
    exact ih fun other hmem => hway other (List.mem_cons_of_mem place hmem)

theorem read_eq_ok : disk.read path = .ok bytes ↔ disk.node? path = some (.file bytes) := by
  rw [read]
  split <;> simp_all

private theorem not_below_file (hn : disk.nodes.get? source ≠ some .directory)
    (hway : ∀ place ∈ (places path).dropLast, disk.nodes.get? place = some .directory)
    (hplace : place ∈ (places path).dropLast) : ¬ source <+: place := by
  intro hbelow
  obtain ⟨n, hlt, rfl⟩ := mem_dropLast_places.mp hplace
  obtain ⟨m, hm, hsource⟩ := exists_followed_take hbelow
  have hmem : source ∈ (places path).dropLast := by
    refine mem_dropLast_places.mpr ⟨min m n, by omega, ?_⟩
    rw [← hsource, List.take_take]
  exact hn (hway source hmem)

private theorem directory_of_mem_places (hparent : disk.node? path.parent = some .directory)
    (hplace : place ∈ (places path).dropLast) : disk.nodes.get? place = some .directory := by
  obtain ⟨hway, hlast⟩ := node?_eq_some.mp hparent
  have hne : path ≠ [] := by
    rintro rfl
    cases hplace
  rw [dropLast_places hne] at hplace
  obtain ⟨n, hle, rfl⟩ : ∃ n ≤ path.parent.length, followed (path.parent.take n) = place := by
    simpa [places, Nat.lt_succ_iff] using hplace
  rcases hle.lt_or_eq with hlt | rfl
  · exact hway _ (mem_dropLast_places.mpr ⟨n, hlt, rfl⟩)
  · rw [List.take_length]
    exact hlast

/-- What has been written is read. -/
theorem read_write (h : disk.write path bytes = .ok after) :
    path ≠ [] ∧ after.read path = .ok bytes := by
  rw [write] at h
  split at h
  · cases h
  · cases h
  · rename_i hdirectory _
    split at h
    · rename_i hparent
      obtain rfl := Except.ok.inj h
      have hne : path ≠ [] := by
        rintro rfl
        exact hdirectory hparent
      have hway : ∀ place ∈ (places path).dropLast, disk.nodes.get? place = some .directory :=
        fun place => directory_of_mem_places hparent
      refine ⟨hne, read_eq_ok.mpr (node?_eq_some.mpr ⟨fun place hplace => ?_, ?_⟩)⟩
      · -- the file is no directory on the way to it
        have hother : followed path ≠ place := by
          rintro rfl
          exact hdirectory (node?_eq_some.mpr ⟨hway, hway _ hplace⟩)
        rw [put, Table.get?_set, if_neg hother]
        exact hway place hplace
      · rw [put, Table.get?_set, if_pos rfl]
    · cases h

/-- Where a rename takes what lies at a place. -/
def movedPlace (source target place : Path) : Path :=
  if place.isUnder source then target ++ place.drop source.length else place

private theorem movedPlace_eq_target (hne : place ≠ target) :
    movedPlace source target place = target ↔ place = source := by
  rw [movedPlace]
  split_ifs with hunder
  · obtain ⟨names, hnames⟩ := Path.isUnder_iff.mp hunder
    rw [← hnames, List.drop_left, List.append_right_eq_self, List.append_right_eq_self]
  · have hother : place ≠ source :=
      fun he => hunder (Path.isUnder_iff.mpr (he ▸ List.prefix_refl _))
    simp [hne, hother]

private theorem movedPlace_eq_other {other : Path} (hs : ¬ source <+: other)
    (ht : ¬ target <+: other) :
    movedPlace source target place = other ↔ place = other := by
  rw [movedPlace]
  split_ifs with hunder
  · have hmoved : target ++ place.drop source.length ≠ other :=
      fun he => ht (he ▸ List.prefix_append _ _)
    have hstays : place ≠ other := fun he => hs (he ▸ Path.isUnder_iff.mp hunder)
    simp [hmoved, hstays]
  · exact Iff.rfl

private theorem rename_eq_ok (hread : disk.read source = .ok bytes)
    (h : disk.rename source target = .ok after) :
    disk.node? target ≠ some .directory ∧ ¬ followed source <+: followed target ∧
      after.nodes.entries = (disk.nodes.erase (followed target)).entries.map fun e =>
        (movedPlace (followed source) (followed target) e.1, e.2) := by
  rw [rename, read_eq_ok.mp hread] at h
  dsimp only at h
  cases hr : replacement disk (.file bytes) target with
  | error e =>
    rw [hr] at h
    cases h
  | ok =>
    rw [hr] at h
    change (if (followed target).isUnder (followed source) then _ else _) = _ at h
    split_ifs at h with hunder
    · cases h
    · have hfree : disk.node? target ≠ some .directory := by
        intro hdirectory
        simp [replacement, hdirectory] at hr
      refine ⟨hfree, fun hbelow => hunder (Path.isUnder_iff.mpr hbelow), ?_⟩
      rw [← Except.ok.inj h]
      apply List.map_congr_left
      intro e _
      rw [movedPlace]
      by_cases hbelow : e.1.isUnder (followed source) = true <;> simp [hbelow]

/-- A file that has been renamed within its directory is read under its new name. -/
theorem read_rename (hread : disk.read source = .ok bytes) (hs : source ≠ []) (ht : target ≠ [])
    (hparent : target.parent = source.parent) (h : disk.rename source target = .ok after) :
    after.read target = .ok bytes := by
  obtain ⟨hway, hfile⟩ := node?_eq_some.mp (read_eq_ok.mp hread)
  obtain ⟨hfree, hout, hafter⟩ := rename_eq_ok hread h
  have hplaces : (places target).dropLast = (places source).dropLast := by
    rw [dropLast_places hs, dropLast_places ht, hparent]
  have htarget : disk.nodes.get? (followed target) ≠ some .directory := by
    intro hdirectory
    exact hfree (node?_eq_some.mpr ⟨hplaces ▸ hway, hdirectory⟩)
  rw [read_eq_ok, node?_eq_some, hplaces]
  constructor
  · -- the way to the file goes neither through it nor through its new place
    intro place hplace
    have hnot : ¬ followed source <+: place := not_below_file (by simp [hfile]) hway hplace
    have hnot' : ¬ followed target <+: place := not_below_file htarget hway hplace
    have hne : followed target ≠ place := fun he => hnot' (he ▸ List.prefix_refl _)
    calc after.nodes.get? place = (disk.nodes.erase (followed target)).get? place := by
          rw [Table.get?, hafter]
          exact Table.getIn_map_key _ fun e _ => movedPlace_eq_other hnot hnot'
      _ = disk.nodes.get? place := by rw [Table.get?_erase, if_neg hne]
      _ = some .directory := hway place hplace
  · have hne : followed target ≠ followed source := fun he => hout (he ▸ List.prefix_refl _)
    calc after.nodes.get? (followed target) =
          (disk.nodes.erase (followed target)).get? (followed source) := by
          rw [Table.get?, hafter]
          exact Table.getIn_map_key _ fun e hmem =>
            movedPlace_eq_target (Table.ne_of_mem_erase hmem)
      _ = disk.nodes.get? (followed source) := by rw [Table.get?_erase, if_neg hne]
      _ = some (.file bytes) := hfile

end Disk

end BlockFsck
