import BlockFsck.Config.File
import BlockFsck.Proofs.Config.Disk

/-!
# Loading a configuration

What loading makes of a file depends on its content alone: an object overrides the defaults, what is
no JSON is put aside, and all else is taken as a list of pairs or ends the load. The bytes are there
afterwards in every case, but not every file is loaded.
-/

namespace BlockFsck.Config

variable {c : Config} {disk : Disk} {path : Path} {bytes : ByteArray} {room : ℕ}

private theorem same_text (name : Points) (key : SettingKey) :
    (SettingKey.text name).same key = true ↔ key = .text name := by
  rw [SettingKey.same]
  cases key with
  | text other =>
    have hsame : Json.sameScalar (.str name) (.str other) = (name == other) := rfl
    simp only [SettingKey.toJson, hsame]
    grind
  | null => simp [SettingKey.toJson, Json.sameScalar, Json.toRat?]
  | truth value => simp [SettingKey.toJson, Json.sameScalar, Json.toRat?]
  | number value => cases value <;> simp [SettingKey.toJson, Json.sameScalar, Json.toRat?]

private theorem keyOf_text (c : Config) (name : Points) : c.keyOf (.text name) = .text name := by
  rw [keyOf]
  cases hfound : c.settings.keys.find? (SettingKey.text name).same with
  | none => rfl
  | some key => exact (same_text name key).mp (List.find?_some hfound)

private theorem get?_put_text (c : Config) (name : Points) (value : Json) (key : SettingKey) :
    (c.put (.text name) value).settings.get? key =
      if .text name = key then some value else c.settings.get? key := by
  rw [put, keyOf_text, Table.get?_set]

private theorem get?_setAll_texts (c : Config) (members : List (Points × Json)) (key : SettingKey) :
    (c.setAll (members.map fun (name, value) => (.text name, value))).settings.get? key =
      match key with
      | .text name => (Table.getIn name members.reverse).or (c.get? name)
      | key => c.settings.get? key := by
  induction members using List.reverseRecOn with
  | nil => cases key <;> rfl
  | append_singleton members member ih =>
    rw [List.map_append, setAll, List.foldl_append]
    change ((c.setAll (members.map fun (name, value) => (.text name, value))).put
      (.text member.1) member.2).settings.get? key = _
    rw [get?_put_text, ih, List.reverse_append]
    cases key with
    | text name =>
      by_cases hname : member.1 = name <;> simp [hname, Table.getIn]
    | null | truth | number => simp

/-- Every setting with a default value has a value. -/
def IsComplete (c : Config) : Prop :=
  ∀ setting ∈ defaultSettings, (c.get? setting.1).isSome = true

private theorem isComplete_default : default.IsComplete := by
  show ∀ setting ∈ defaultSettings, (default.get? setting.1).isSome = true
  decide +kernel

private theorem IsComplete.put (h : c.IsComplete) (key : SettingKey) (value : Json) :
    (c.put key value).IsComplete := by
  intro setting hmem
  have hbefore := h setting hmem
  rw [get?] at hbefore ⊢
  rw [Config.put, Table.get?_set]
  split_ifs
  · rfl
  · exact hbefore

private theorem IsComplete.setAll (h : c.IsComplete) (pairs : List (SettingKey × Json)) :
    (c.setAll pairs).IsComplete := by
  induction pairs generalizing c with
  | nil => exact h
  | cons pair pairs ih => exact ih (h.put pair.1 pair.2)

/-- The members of the object that the bytes are, if they are one. -/
def membersOf? (room : ℕ) (bytes : ByteArray) : Option (List (Points × Json)) :=
  match (String.fromUTF8? bytes).map (Json.read room) with
  | some (.ok (.obj members)) => some members
  | _ => none

/-- The defaults, overridden by the members of an object. -/
def Overridden (c : Config) (members : List (Points × Json)) : Prop :=
  ∀ key, c.settings.get? key = match key with
    | .text name => (Table.getIn name members.reverse).or (default.get? name)
    | _ => none

theorem ofBytes_of_members {members : List (Points × Json)} (h : membersOf? room bytes = some members) :
    ∃ c, ofBytes room bytes = .config c ∧ c.Overridden members := by
  rw [membersOf?] at h
  rw [ofBytes]
  cases htext : String.fromUTF8? bytes with
  | none => simp [htext] at h
  | some text =>
    rw [htext, Option.map_some] at h
    dsimp only
    cases hread : Json.read room text with
    | error cause => simp [hread] at h
    | ok value =>
      rw [hread] at h
      cases value with
      | obj found =>
        obtain rfl : found = members := Option.some.inj h
        refine ⟨_, rfl, fun key => ?_⟩
        rw [get?_setAll_texts]
        cases key <;> rfl
      | null | bool | int | float | str | arr => cases h

private theorem not_member_of_content (h : ∀ c, ofBytes room bytes ≠ .config c) :
    membersOf? room bytes = none := by
  cases hmembers : membersOf? room bytes with
  | none => rfl
  | some members =>
    obtain ⟨c, hc, -⟩ := ofBytes_of_members hmembers
    exact absurd hc (h c)

private theorem exists_pairs_of_config (h : ofBytes room bytes = .config c) :
    ∃ pairs, c = default.setAll pairs := by
  rw [ofBytes] at h
  split at h
  · cases h
  · split at h
    · cases h
    · cases h
    · split at h
      · exact ⟨_, (Content.config.inj h).symm⟩
      · cases h

private theorem isComplete_of_config (h : ofBytes room bytes = .config c) : c.IsComplete := by
  obtain ⟨pairs, rfl⟩ := exists_pairs_of_config h
  exact isComplete_default.setAll pairs

private theorem backupPath_parent (hne : path ≠ []) : (backupPath path).parent = path.parent := by
  rw [backupPath, List.getLast?_eq_some_getLast hne]
  exact Path.parent_append_singleton _ _

private theorem backupPath_ne_root (hne : path ≠ []) : backupPath path ≠ [] := by
  rw [backupPath, List.getLast?_eq_some_getLast hne]
  simp

/-- Where the bytes of a file are that may have been put aside. -/
inductive Kept (disk : Disk) (path : Path) (bytes : ByteArray) (after : Disk) : Prop
  | aside (hread : after.read (backupPath path) = .ok bytes)
  | inPlace {e : DiskError} (hrefused : disk.rename path (backupPath path) = .error e)
      (hread : after.read path = .ok bytes)

private theorem kept_setAside (hne : path ≠ []) (hread : disk.read path = .ok bytes) :
    Kept disk path bytes (setAside disk path).2 := by
  rw [setAside]
  cases hrename : disk.rename path (backupPath path) with
  | error e => exact .inPlace hrename hread
  | ok after =>
    exact .aside (Disk.read_rename hread hne (backupPath_ne_root hne) (backupPath_parent hne)
      hrename)

theorem load_of_read (hne : path ≠ []) (hread : disk.read path = .ok bytes) :
    load room disk path = loadFile room disk path := by
  have hnode := Disk.read_eq_ok.mp hread
  have hthere : disk.isThere path = true := by simp [Disk.isThere, hnode]
  rw [load, Disk.makeDirectories_parent hne (Disk.node?_eq_some.mp hnode).1]
  dsimp only
  rw [if_pos hthere]

/-- A load as it should be: it comes to a complete configuration, which an object overrides and
nothing else, and a file that is no object is kept. -/
structure Promised (room : ℕ) (disk : Disk) (path : Path) (bytes : ByteArray)
    (ended : Except LoadError Config × Disk) : Prop where
  loaded : ∃ c, ended.1 = .ok c ∧ c.IsComplete
  of_object : ∀ members, membersOf? room bytes = some members →
    ended.2 = disk ∧ ∀ c, ended.1 = .ok c → c.Overridden members
  of_other : membersOf? room bytes = none → ended.1 = .ok default ∧ Kept disk path bytes ended.2

/-- A file is loaded as it should be if it holds an object or no JSON. If it holds other JSON that
can be taken as pairs then these must change nothing, and as it is not put aside it must be where
one that is put aside would be. A file that is refused ends the load, and no file is lost. -/
theorem load_promised_iff (hne : path ≠ []) (hread : disk.read path = .ok bytes) :
    (Promised room disk path bytes (load room disk path) ↔
      (∃ members, membersOf? room bytes = some members) ∨
      (∃ reason, ofBytes room bytes = .broken reason) ∨
      (ofBytes room bytes = .config default ∧ Kept disk path bytes disk)) ∧
    ((∃ e, (load room disk path).1 = .error e) ↔ ∃ e, ofBytes room bytes = .refused e) ∧
    ((load room disk path).2.read path = .ok bytes ∨
      (load room disk path).2.read (backupPath path) = .ok bytes) := by
  rw [load_of_read hne hread, loadFile, hread]
  dsimp only
  cases hcontent : ofBytes room bytes with
  | config c =>
    have hcomplete := isComplete_of_config hcontent
    refine ⟨⟨fun h => ?_, fun h => ?_⟩, by simp, .inl hread⟩
    · cases hmembers : membersOf? room bytes with
      | some members => exact .inl ⟨members, rfl⟩
      | none =>
        obtain ⟨hdefault, hkept⟩ := h.of_other hmembers
        exact .inr (.inr ⟨congrArg Content.config (Except.ok.inj hdefault), hkept⟩)
    · refine ⟨⟨c, rfl, hcomplete⟩, fun members hmembers => ⟨rfl, ?_⟩, fun hmembers => ?_⟩
      · intro loaded hloaded
        obtain ⟨read, hread, hover⟩ := ofBytes_of_members hmembers
        obtain rfl : c = loaded := Except.ok.inj hloaded
        obtain rfl : c = read := Content.config.inj (hcontent.symm.trans hread)
        exact hover
      · rcases h with ⟨members, hsome⟩ | ⟨reason, hbroken⟩ | ⟨hdefault, hkept⟩
        · simp [hmembers] at hsome
        · cases hbroken
        · exact ⟨congrArg Except.ok (Content.config.inj hdefault), hkept⟩
  | broken reason =>
    have hnone : membersOf? room bytes = none := not_member_of_content (by simp [hcontent])
    have hkept := kept_setAside hne hread
    refine ⟨⟨fun _ => .inr (.inl ⟨reason, rfl⟩), fun _ => ?_⟩, by simp [setAside], ?_⟩
    · refine ⟨⟨default, rfl, isComplete_default⟩, fun members hmembers => ?_, fun _ => ⟨rfl, hkept⟩⟩
      simp [hnone] at hmembers
    · cases hkept with
      | aside hread => exact .inr hread
      | inPlace _ hread => exact .inl hread
  | refused e =>
    have hnone : membersOf? room bytes = none := not_member_of_content (by simp [hcontent])
    refine ⟨⟨fun h => ?_, fun h => ?_⟩, by simp, .inl hread⟩
    · obtain ⟨c, hc, -⟩ := h.loaded
      cases hc
    · rcases h with ⟨members, hsome⟩ | ⟨reason, hbroken⟩ | ⟨hdefault, -⟩
      · simp [hnone] at hsome
      · cases hbroken
      · cases hdefault

/-- A disk with one file. -/
def oneFile (bytes : ByteArray) : Disk := ⟨⟨[([], .directory), (["fsck.json"], .file bytes)]⟩⟩

/-- A file with a bracket that is not closed is put aside. -/
theorem load_promised_iff_of_broken :
    (oneFile "[".toUTF8).read ["fsck.json"] = .ok "[".toUTF8 ∧
      Promised 1 (oneFile "[".toUTF8) ["fsck.json"] "[".toUTF8
        (load 1 (oneFile "[".toUTF8) ["fsck.json"]) := by
  have hread : (oneFile "[".toUTF8).read ["fsck.json"] = .ok "[".toUTF8 := by decide +kernel
  have hbroken : ∃ reason, ofBytes 1 "[".toUTF8 = .broken reason := ⟨_, by rfl⟩
  exact ⟨hread, (load_promised_iff (by decide) hread).1.mpr (.inr (.inl hbroken))⟩

/-- A file that is no UTF-8 ends the load. -/
theorem invalid_text_ends_load :
    (oneFile ⟨#[0xff, 0xfe]⟩).read ["fsck.json"] = .ok ⟨#[0xff, 0xfe]⟩ ∧
      (load 1 (oneFile ⟨#[0xff, 0xfe]⟩) ["fsck.json"]).1 = .error (.content .notText) ∧
      ¬ Promised 1 (oneFile ⟨#[0xff, 0xfe]⟩) ["fsck.json"] ⟨#[0xff, 0xfe]⟩
        (load 1 (oneFile ⟨#[0xff, 0xfe]⟩) ["fsck.json"]) := by
  have hended : (load 1 (oneFile ⟨#[0xff, 0xfe]⟩) ["fsck.json"]).1 =
    .error (.content .notText) := by rfl
  refine ⟨by decide +kernel, hended, fun h => ?_⟩
  obtain ⟨c, hc, -⟩ := h.loaded
  rw [hended] at hc
  cases hc

end BlockFsck.Config
