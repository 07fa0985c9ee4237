import BlockFsck.Proofs.Config.Loading
import BlockFsck.Proofs.Json.RoundTrip

/-!
# Saving a configuration and loading it again

A configuration that has been saved means the same when it is loaded, if its keys are texts and its
values are within the limits of the JSON writer and reader, and otherwise it does not. The defaults
that stand in a fresh configuration are those that the getters take for a missing setting.
-/

namespace BlockFsck

/-- The key is the name of a member in a file as it is. -/
def SettingKey.isText : SettingKey → Bool
  | .text _ => true
  | _ => false

/-- Whatever its content, a file can be written at the path. -/
def Disk.IsWritable (disk : Disk) (path : Path) : Prop :=
  ∀ content, ∃ after, disk.write path content = .ok after

namespace Config

variable {c loaded : Config} {disk after : Disk} {path : Path} {members : List (Points × Json)}
  {writing reading : ℕ}

/-- A change to a configuration in memory. -/
inductive Edit
  | set (key : SettingKey) (value : Json)
  | unset (key : SettingKey)
  | setService (host port : Json)

namespace Edit

def apply (c : Config) : Edit → Config
  | .set key value => c.put key value
  | .unset key => (c.take key).2
  | .setService host port => c.setService host port

/-- The values that the edit writes are plain. -/
def isPlain : Edit → Bool
  | .set _ value => value.isPlain
  | .unset _ => true
  | .setService host port => host.isPlain && port.isPlain

end Edit

/-- The defaults after edits. -/
def edited (edits : List Edit) : Config := edits.foldl Edit.apply default

/-- Each key has one value, and the values are plain. -/
structure IsPlain (c : Config) : Prop where
  nodup : c.settings.keys.Nodup
  plain : ∀ entry ∈ c.settings.entries, entry.2.isPlain = true

private theorem isPlain_default : default.IsPlain where
  nodup := by decide
  plain := by decide

private theorem IsPlain.write (h : c.IsPlain) (key : SettingKey) {value : Json}
    (hvalue : value.isPlain = true) : IsPlain ⟨c.settings.set key value⟩ where
  nodup := Table.keys_set_nodup h.nodup key value
  plain entry hmem := by
    rcases Table.mem_set hmem with rfl | hmem
    · exact hvalue
    · exact h.plain entry hmem

private theorem IsPlain.apply (h : c.IsPlain) {edit : Edit} (hedit : edit.isPlain = true) :
    (edit.apply c).IsPlain := by
  cases edit with
  | set key value => exact h.write _ hedit
  | unset key =>
    exact ⟨Table.keys_erase_nodup h.nodup _, fun entry hmem =>
      h.plain entry (Table.mem_erase hmem)⟩
  | setService host port =>
    obtain ⟨hhost, hport⟩ := Bool.and_eq_true_iff.mp hedit
    have hset := h.write (.text "namenode_host") hhost
    cases port with
    | null => exact hset
    | _ => exact hset.write (.text "namenode_port") hport

private theorem isPlain_edited {edits : List Edit} (h : ∀ edit ∈ edits, edit.isPlain = true) :
    (edited edits).IsPlain := by
  induction edits using List.reverseRecOn with
  | nil => exact isPlain_default
  | append_singleton edits edit ih =>
    rw [edited, List.foldl_append]
    have hbefore := ih fun earlier hmem => h earlier (List.mem_append_left _ hmem)
    exact hbefore.apply (h edit (by simp))

/-- A configuration that means the same as the one that was saved: it has the same values, the
defaults where there was none, and the getters answer the same. -/
structure Agrees (saved loaded : Config) : Prop where
  settings : ∀ key,
    loaded.settings.get? key = (saved.settings.get? key).or (default.settings.get? key)
  baseUrl : loaded.baseUrl = saved.baseUrl
  timeout : loaded.timeout = saved.timeout
  maxRetries : loaded.maxRetries = saved.maxRetries
  backoff : loaded.backoff = saved.backoff
  logLevel : loaded.logLevel = saved.logLevel
  quarantine : loaded.quarantine = saved.quarantine

private theorem Agrees.of_settings (h : ∀ key,
    loaded.settings.get? key = (c.settings.get? key).or (default.settings.get? key)) :
    Agrees c loaded := by
  have hgetOr : ∀ (name : Points) missing, default.get? name = some missing →
      loaded.getOr name missing = c.getOr name missing := by
    intro name missing hdefault
    rw [get?] at hdefault
    rw [getOr, getOr, get?, get?, h, hdefault]
    cases c.settings.get? (.text name) <;> rfl
  have hauthority : loaded.authority = c.authority := by
    unfold authority
    rw [hgetOr "namenode_host" _ rfl, hgetOr "namenode_port" _ rfl]
  exact {
    settings := h
    baseUrl := congrArg (Points.ofText "http://" ++ ·) hauthority
    timeout := hgetOr _ _ rfl
    maxRetries := hgetOr _ _ rfl
    backoff := hgetOr _ _ rfl
    logLevel := hgetOr _ _ rfl
    quarantine := hgetOr _ _ rfl }

/-- The configuration is saved and loaded with the same meaning. There is room for so many levels
when it is written and when it is read. -/
def Reloads (writing reading : ℕ) (c : Config) (disk : Disk) (path : Path) : Prop :=
  ∃ after loaded, c.save writing disk path = (.ok (), after) ∧
    (load reading after path).1 = .ok loaded ∧ Agrees c loaded

/-- What a file can hold: texts as keys, and values within the limits of the writer and the reader,
where the object of the settings is a container too. -/
def isStorable (writing reading : ℕ) (c : Config) : Bool :=
  c.settings.entries.all (·.1.isText) && c.toJson.isWritable writing && c.toJson.fits reading

/-- The keys are the names of the members in a file. -/
def HasTextKeys (c : Config) : Prop := ∀ entry ∈ c.settings.entries, ∃ name, entry.1 = .text name

private theorem hasTextKeys_iff : c.settings.entries.all (·.1.isText) = true ↔ c.HasTextKeys := by
  have htext : ∀ key : SettingKey, key.isText = true ↔ ∃ name, key = .text name := by
    intro key
    cases key <;> simp [SettingKey.isText]
  simp [HasTextKeys, htext]

/-- The settings as the members of an object. -/
def written (c : Config) : List (Points × Json) :=
  c.settings.entries.map fun (key, value) => (key.written, value)

private theorem HasTextKeys.chunks_eq (h : c.HasTextKeys) : c.chunks = c.toJson.chunks 0 [] := by
  have hrest : ∀ entries : List (SettingKey × Json),
      (∀ entry ∈ entries, ∃ name, entry.1 = SettingKey.text name) →
      (entries.flatMap fun e => e.1.chunks (',' :: Json.lineBreak 1) ++ e.2.chunks 1 []) =
        Json.memberChunks 1 (entries.map fun (key, value) => (key.written, value)) := by
    intro entries hall
    induction entries with
    | nil => rfl
    | cons e entries ih =>
      obtain ⟨⟨name, hname⟩, hmore⟩ := List.forall_mem_cons.mp hall
      rw [List.flatMap_cons, ih hmore, List.map_cons, Json.memberChunks, hname]
      rfl
  rw [chunks, toJson]
  cases hentries : c.settings.entries with
  | nil => rfl
  | cons e entries =>
    rw [HasTextKeys, hentries] at h
    obtain ⟨⟨name, hname⟩, hmore⟩ := List.forall_mem_cons.mp h
    dsimp only
    rw [hrest entries hmore, List.map_cons, Json.chunks, hname]
    rfl

private theorem HasTextKeys.text_eq (h : c.HasTextKeys) :
    c.text = String.ofList (Json.indentedChars 0 c.toJson) := by
  rw [text, h.chunks_eq]
  rfl

private theorem exists_toList_text (c : Config) : ∃ cs, c.text.toList = '\x7b' :: cs := by
  rw [text, String.toList_ofList, chunks]
  cases c.settings.entries with
  | nil => exact ⟨_, rfl⟩
  | cons e entries => exact ⟨_, rfl⟩

private theorem fromUTF8?_toUTF8 (s : String) : String.fromUTF8? s.toUTF8 = some s := by
  rw [String.fromUTF8?]
  split
  · rfl
  · rename_i hinvalid
    exact absurd s.isValidUTF8 hinvalid

private theorem membersOf?_text (h : Json.read reading c.text = .ok (.obj members)) :
    membersOf? reading c.text.toUTF8 = some members := by
  rw [membersOf?, fromUTF8?_toUTF8, Option.map_some, h]

private theorem ofBytes_text_zero (c : Config) : ∃ e, ofBytes 0 c.text.toUTF8 = .refused e := by
  obtain ⟨cs, htext⟩ := exists_toList_text c
  obtain ⟨message, hread⟩ : ∃ message, Json.read 0 c.text = .error (.tooDeep message) := by
    rw [Json.read, htext]
    exact ⟨_, rfl⟩
  rw [ofBytes, fromUTF8?_toUTF8]
  dsimp only
  rw [hread]
  exact ⟨_, rfl⟩

private theorem exists_overridden_of_load (hne : path ≠ [])
    (hread : disk.read path = .ok c.text.toUTF8)
    (h : (load reading disk path).1 = .ok loaded) :
    ∃ members, loaded.Overridden members ∧ (Json.obj members).fits reading = true := by
  rw [load_of_read hne hread, loadFile, hread] at h
  dsimp only at h
  cases hcontent : ofBytes reading c.text.toUTF8 with
  | config found =>
    rw [hcontent] at h
    obtain rfl := Except.ok.inj h
    have hvalue : ∃ value, Json.read reading c.text = .ok value := by
      cases hjson : Json.read reading c.text with
      | ok value => exact ⟨value, rfl⟩
      | error cause =>
        rw [ofBytes, fromUTF8?_toUTF8] at hcontent
        dsimp only at hcontent
        rw [hjson] at hcontent
        cases cause <;> cases hcontent
    obtain ⟨value, hjson⟩ := hvalue
    obtain ⟨cs, htext⟩ := exists_toList_text c
    obtain ⟨members, rfl, hfit⟩ := Json.exists_members_of_read htext hjson
    obtain ⟨found', hfound, hover⟩ := ofBytes_of_members (membersOf?_text hjson)
    obtain rfl := Content.config.inj (hcontent.symm.trans hfound)
    exact ⟨members, hover, hfit⟩
  | broken reason =>
    rw [hcontent] at h
    obtain rfl := Except.ok.inj h
    refine ⟨[], fun key => by cases key <;> rfl, ?_⟩
    cases reading with
    | zero =>
      obtain ⟨e, he⟩ := ofBytes_text_zero c
      cases he.symm.trans hcontent
    | succ room => rfl
  | refused error =>
    rw [hcontent] at h
    cases h

private theorem written_nodup (hnodup : c.settings.keys.Nodup) (h : c.HasTextKeys) :
    (c.written.map Prod.fst).Nodup := by
  have hkeys : c.written.map Prod.fst = c.settings.keys.map SettingKey.written := by
    rw [written, Table.keys, List.map_map, List.map_map]
    rfl
  rw [hkeys]
  refine List.Nodup.map_on (fun key hkey other hother hsame => ?_) hnodup
  obtain ⟨entry, hentry, rfl⟩ := List.mem_map.mp hkey
  obtain ⟨entry', hentry', rfl⟩ := List.mem_map.mp hother
  obtain ⟨name, hname⟩ := h _ hentry
  obtain ⟨name', hname'⟩ := h _ hentry'
  rw [hname, hname'] at hsame ⊢
  exact congrArg SettingKey.text hsame

private theorem getIn_written (hnodup : c.settings.keys.Nodup) (h : c.HasTextKeys) (name : Points) :
    Table.getIn name c.written.reverse = c.get? name := by
  have hreverse : (Table.mk c.written.reverse).keys.Nodup := by
    rw [Table.keys, List.map_reverse]
    exact List.nodup_reverse.mpr (written_nodup hnodup h)
  refine Option.ext fun value => ?_
  calc (Table.mk c.written.reverse).get? name = some value
      ↔ (name, value) ∈ c.written.reverse := Table.get?_eq_some_iff hreverse
    _ ↔ (.text name, value) ∈ c.settings.entries := by
      rw [List.mem_reverse, written, List.mem_map]
      constructor
      · rintro ⟨⟨key, found⟩, hmem, hentry⟩
        obtain ⟨other, rfl⟩ := h _ hmem
        obtain ⟨rfl, rfl⟩ := Prod.mk.inj hentry
        exact hmem
      · exact fun hmem => ⟨_, hmem, rfl⟩
    _ ↔ c.get? name = some value := (Table.get?_eq_some_iff hnodup).symm

private theorem read_text (hplain : c.IsPlain) (htext : c.HasTextKeys)
    (hfits : c.toJson.fits reading = true) : Json.read reading c.text = .ok (.obj c.written) := by
  rw [htext.text_eq]
  refine Json.read_indented ?_ hfits
  have hmembers : Json.arePlainMembers c.written = true := by
    refine Json.arePlainMembers_iff.mpr fun member hmem => ?_
    obtain ⟨entry, hentry, rfl⟩ := List.mem_map.mp hmem
    exact hplain.plain entry hentry
  have hnodup := written_nodup hplain.nodup htext
  show (Json.obj c.written).isPlain = true
  rw [Json.isPlain, hmembers, Bool.and_true, decide_eq_true_iff]
  exact hnodup

/-! ## Saving and loading -/

private theorem save_eq_ok_iff (hwrite : disk.IsWritable path) :
    c.save writing disk path = (.ok (), after) ↔
      (∀ chunk ∈ c.chunks, chunk.fault? writing = none) ∧
        disk.write path c.text.toUTF8 = .ok after := by
  rw [← Json.written_eq_none_iff, save]
  obtain ⟨found, hfound⟩ := hwrite (String.ofList (Json.written writing c.chunks).1).toUTF8
  cases hfault : (Json.written writing c.chunks).2 with
  | none =>
    rw [Json.written_of_faultless hfault] at hfound
    dsimp only
    rw [hfault, Json.written_of_faultless hfault, hfound, text, hfound]
    simp
  | some fault =>
    dsimp only
    rw [hfault, hfound]
    simp

private theorem fits_default {name : Points} {value : Json}
    (h : (SettingKey.text name, value) ∈ default.settings.entries) :
    name.hasSplitPair = false ∧ value.fits reading = true := by
  obtain ⟨setting, hmem, hentry⟩ := List.mem_map.mp h
  obtain ⟨hname, rfl⟩ := Prod.mk.inj hentry
  obtain rfl := SettingKey.text.inj hname
  have hlimit : ∀ n : ℕ, n < 10 ^ 4 → n < 10 ^ Json.maxDigits := fun n hn =>
    hn.trans_le (Nat.pow_le_pow_right (by decide) (by decide))
  have hvalues : ∀ setting ∈ defaultSettings, setting.2.fits reading = true := by
    simp [defaultSettings, Json.fits, Points.hasSplitPair_ofText, hlimit]
  exact ⟨Points.hasSplitPair_ofText _, hvalues setting hmem⟩

private theorem reloads_iff (hplain : c.IsPlain) (hwrite : disk.IsWritable path) :
    c.Reloads writing reading disk path ↔ c.isStorable writing reading = true := by
  rw [isStorable, Bool.and_eq_true, Bool.and_eq_true, hasTextKeys_iff, and_assoc]
  constructor
  · rintro ⟨after, loaded, hsave, hload, hagrees⟩
    obtain ⟨hfaultless, hafter⟩ := (save_eq_ok_iff hwrite).mp hsave
    obtain ⟨hne, hread⟩ := Disk.read_write hafter
    obtain ⟨members, hover, hfit⟩ := exists_overridden_of_load hne hread hload
    obtain ⟨room, rfl⟩ : ∃ room, reading = room + 1 := by
      cases reading with
      | zero => cases hfit
      | succ room => exact ⟨room, rfl⟩
    rw [Json.fits] at hfit
    have hall : ∀ key value, (key, value) ∈ c.settings.entries →
        ∃ name, key = .text name ∧ name.hasSplitPair = false ∧ value.fits room = true := by
      intro key value hmem
      have hvalue := hagrees.settings key
      rw [(Table.get?_eq_some_iff hplain.nodup).mpr hmem, Option.some_or, hover] at hvalue
      cases key with
      | null | truth | number => cases hvalue
      | text name =>
        refine ⟨name, rfl, ?_⟩
        dsimp only at hvalue
        rcases Option.or_eq_some_iff.mp hvalue with hfound | ⟨-, hdefault⟩
        · have hmember := Table.mem_of_get? (t := ⟨members.reverse⟩) hfound
          exact Json.allFitMembers_iff.mp hfit _ (List.mem_reverse.mp hmember)
        · exact fits_default (Table.mem_of_get? hdefault)
    have htext : c.HasTextKeys := fun entry hmem =>
      let ⟨name, hname, _⟩ := hall entry.1 entry.2 hmem
      ⟨name, hname⟩
    refine ⟨htext, ?_, ?_⟩
    · rw [htext.chunks_eq] at hfaultless
      rw [← Json.faultless_chunks_iff _ writing 0 [], Nat.zero_add]
      exact hfaultless
    · show Json.allFitMembers room c.written = true
      refine Json.allFitMembers_iff.mpr fun member hmem => ?_
      obtain ⟨entry, hentry, rfl⟩ := List.mem_map.mp hmem
      obtain ⟨name, hname, hfits⟩ := hall entry.1 entry.2 hentry
      dsimp only
      rw [hname]
      exact hfits
  · rintro ⟨htext, hwritable, hfits⟩
    have hfaultless : ∀ chunk ∈ c.chunks, chunk.fault? writing = none := by
      rw [htext.chunks_eq]
      have hiff := Json.faultless_chunks_iff c.toJson writing 0 []
      rw [Nat.zero_add] at hiff
      exact hiff.mpr hwritable
    obtain ⟨after, hafter⟩ := hwrite c.text.toUTF8
    obtain ⟨hne, hread⟩ := Disk.read_write hafter
    obtain ⟨loaded, hcontent, hover⟩ :=
      ofBytes_of_members (membersOf?_text (read_text hplain htext hfits))
    refine ⟨after, loaded, (save_eq_ok_iff hwrite).mpr ⟨hfaultless, hafter⟩, ?_,
      .of_settings fun key => ?_⟩
    · rw [load_of_read hne hread, loadFile, hread]
      dsimp only
      rw [hcontent]
    · have hnone : key.isText = false → c.settings.get? key = none := by
        intro hother
        cases hvalue : c.settings.get? key with
        | none => rfl
        | some value =>
          obtain ⟨name, hname⟩ := htext _ (Table.mem_of_get? hvalue)
          dsimp only at hname
          subst hname
          cases hother
      rw [hover]
      cases key with
      | text name =>
        dsimp only
        rw [getIn_written hplain.nodup htext]
        rfl
      | null | truth | number =>
        rw [hnone rfl]
        rfl

/-- A configuration that was made by edits with plain values means the same after it has been saved
and loaded, exactly if its keys are texts and its values within the limits of the writer and the
reader. -/
theorem edited_reloads_iff (writing reading : ℕ) (edits : List Edit)
    (hedits : ∀ edit ∈ edits, edit.isPlain = true) (disk : Disk) (path : Path)
    (hwrite : disk.IsWritable path) :
    (edited edits).Reloads writing reading disk path ↔
      (edited edits).isStorable writing reading = true :=
  reloads_iff (isPlain_edited hedits) hwrite

private theorem isWritable_empty : ({} : Disk).IsWritable ["fsck.json"] := fun _ => ⟨_, rfl⟩

/-- Escapes, half of a surrogate pair, nested values, a setting that was removed, and another
service. -/
theorem edited_reloads_iff_of_edits :
    (∀ edit ∈ [Edit.set (.text "note\n") (.str (Points.ofText "é\"😀" ++ [0xD83D])),
        .set (.text "limits") (.obj [("low", .arr [.int (-5), .null]), ("high", .bool true)]),
        .unset (.text "timeout"), .setService (.str "nn") (.int 9)], edit.isPlain = true) ∧
      ({} : Disk).IsWritable ["fsck.json"] ∧
      (edited [Edit.set (.text "note\n") (.str (Points.ofText "é\"😀" ++ [0xD83D])),
        .set (.text "limits") (.obj [("low", .arr [.int (-5), .null]), ("high", .bool true)]),
        .unset (.text "timeout"), .setService (.str "nn") (.int 9)]).Reloads 3 3 {}
          ["fsck.json"] := by
  have hedits : ∀ edit ∈ [Edit.set (.text "note\n") (.str (Points.ofText "é\"😀" ++ [0xD83D])),
      .set (.text "limits") (.obj [("low", .arr [.int (-5), .null]), ("high", .bool true)]),
      .unset (.text "timeout"), .setService (.str "nn") (.int 9)], edit.isPlain = true := by
    decide +kernel
  exact ⟨hedits, isWritable_empty,
    (edited_reloads_iff 3 3 _ hedits {} ["fsck.json"] isWritable_empty).mpr (by decide +kernel)⟩

/-- So many lists within each other. -/
def nested : ℕ → Json
  | 0 => .null
  | depth + 1 => .arr [nested depth]

private theorem isPlain_nested (depth : ℕ) : (nested depth).isPlain = true := by
  induction depth with
  | zero => rfl
  | succ depth ih => rw [nested, Json.isPlain, Json.arePlain, ih]; rfl

private theorem fits_nested (room depth : ℕ) : (nested depth).fits room = decide
    (depth ≤ room) := by
  induction depth generalizing room with
  | zero => rfl
  | succ depth ih =>
    cases room with
    | zero => rfl
    | succ room =>
      rw [nested, Json.fits, Json.allFit, Json.allFit, Bool.and_true, ih]
      simp

private theorem not_reloads_of_set {key : SettingKey} {value : Json} (hplain : value.isPlain = true)
    (h : (default.keyOf key).isText = false ∨ value.fits (reading - 1) = false) :
    ¬ (edited [.set key value]).Reloads writing reading {} ["fsck.json"] := by
  have hvalue : (edited [.set key value]).settings.get? (default.keyOf key) = some value := by
    change (default.settings.set _ _).get? _ = _
    rw [Table.get?_set, if_pos rfl]
  have hmem := Table.mem_of_get? hvalue
  have hedits : ∀ edit ∈ [Edit.set key value], edit.isPlain = true :=
    List.forall_mem_singleton.mpr hplain
  rw [reloads_iff (isPlain_edited hedits) isWritable_empty, isStorable, Bool.and_eq_true,
    Bool.and_eq_true, List.all_eq_true]
  rintro ⟨⟨htexts, -⟩, hfits⟩
  rcases h with htext | hlimit
  · rw [htexts _ hmem] at htext
    cases htext
  · cases reading with
    | zero => cases hfits
    | succ room =>
      have hmember := Json.allFitMembers_iff.mp hfits _ (List.mem_map_of_mem hmem)
      exact absurd hmember.2 (Bool.eq_false_iff.mp hlimit)

private theorem save_tooManyDigits {n : ℤ} (h : ¬ n.natAbs < 10 ^ Json.maxDigits) :
    ((edited [.set (.text "timeout") (.int n)]).save 1000 {} ["fsck.json"]).1 =
      .error .tooManyDigits := by
  have hlong : (Json.Chunk.int [] n []).fault? 1000 = some .tooManyDigits := by
    rw [Json.fault?_int, if_neg h]
  have hchunks : (edited [.set (.text "timeout") (.int n)]).chunks = default.chunks.take 8 ++
      .int [] n [] :: (edited [.set (.text "timeout") (.int n)]).chunks.drop 9 := rfl
  have hbefore : ∀ c ∈ default.chunks.take 8, c.fault? 1000 = none := by decide +kernel
  rw [save, hchunks, Json.written_of_fault hbefore hlong]
  rfl

/-- A pair as two code points becomes one, an integer can be too long to be written, lists can lie
too deep within each other, and a key that is a number becomes a text. -/
theorem not_reloads_beyond_limits :
    ({} : Disk).IsWritable ["fsck.json"] ∧
      ¬ (edited [.set (.text "log_level") (.str [0xD83D, 0xDE00])]).Reloads 1000 1000 {}
        ["fsck.json"] ∧
      ((edited [.set (.text "timeout") (.int (10 ^ Json.maxDigits))]).save 1000 {}
        ["fsck.json"]).1 = .error .tooManyDigits ∧
      ¬ (edited [.set (.text "timeout") (nested 1000)]).Reloads 1000 1000 {} ["fsck.json"] ∧
      ¬ (edited [.set (.number (.int 1)) (.int 2)]).Reloads 1000 1000 {} ["fsck.json"] := by
  refine ⟨isWritable_empty, not_reloads_of_set rfl (.inr (by decide)), save_tooManyDigits ?_,
    not_reloads_of_set (isPlain_nested _) (.inr ?_),
    not_reloads_of_set rfl (.inl (by decide +kernel))⟩
  · have hpow : ∀ n : ℕ, ((10 : ℤ) ^ n).natAbs = 10 ^ n := Int.natAbs_pow 10
    rw [hpow]
    exact lt_irrefl _
  · rw [fits_nested]
    decide

end Config

end BlockFsck
