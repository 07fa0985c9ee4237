import BlockFsck.Text.Encoding
import BlockFsck.Text.Percent
import Mathlib.Tactic.SplitIfs

/-!
# Text out of its bytes

A text is read out of its own UTF-8 bytes as itself, and so it is out of the percent signs that
write them. Its bytes are not taken for those of another encoding, unless one of them is zero.
-/

namespace BlockFsck.Text

section Steps

variable {b : Nat} {lead : Lead} (rest : List Nat)

private theorem ofBytesFrom_single (hb : b < 0x80) :
    ofBytesFrom none (b :: rest) = Char.ofNat b :: ofBytesFrom none rest := by
  simp [ofBytesFrom, hb]

private theorem ofBytesFrom_lead (hb : 0x80 ≤ b) (hlead : Lead.ofByte? b = some lead) :
    ofBytesFrom none (b :: rest) = ofBytesFrom (some lead) rest := by
  have hnot : ¬ b < 0x80 := by omega
  simp [ofBytesFrom, hnot, hlead]

private theorem ofBytesFrom_last (hl : lead.least ≤ b) (hg : b ≤ lead.greatest)
    (hf : lead.follow = 1) :
    ofBytesFrom (some lead) (b :: rest) =
      Char.ofNat (64 * lead.bits + (b - 0x80)) :: ofBytesFrom none rest := by
  simp [ofBytesFrom, hl, hg, hf]

private theorem ofBytesFrom_next (hl : lead.least ≤ b) (hg : b ≤ lead.greatest)
    (hf : lead.follow ≠ 1) :
    ofBytesFrom (some lead) (b :: rest) =
      ofBytesFrom (some { follow := lead.follow - 1, bits := 64 * lead.bits + (b - 0x80) })
        rest := by
  simp [ofBytesFrom, hl, hg, hf]

end Steps

private theorem Lead.ofByte?_two {n : Nat} (hl : 0xC2 ≤ n) (hg : n < 0xE0) :
    Lead.ofByte? n = some { follow := 1, bits := n - 0xC0 } := by
  grind [Lead.ofByte?]

private theorem Lead.ofByte?_three {n : Nat} (hl : 0xE0 ≤ n) (hg : n < 0xF0) :
    Lead.ofByte? n = some { follow := 2, bits := n - 0xE0
                            least := if n = 0xE0 then 0xA0 else 0x80
                            greatest := if n = 0xED then 0x9F else 0xBF } := by
  grind [Lead.ofByte?]

private theorem Lead.ofByte?_four {n : Nat} (hl : 0xF0 ≤ n) (hg : n < 0xF5) :
    Lead.ofByte? n = some { follow := 3, bits := n - 0xF0
                            least := if n = 0xF0 then 0x90 else 0x80
                            greatest := if n = 0xF4 then 0x8F else 0xBF } := by
  grind [Lead.ofByte?]

section Characters

variable {v : Nat} (rest : List Nat)

private theorem ofBytesFrom_two (hl : 0x80 ≤ v) (hg : v ≤ 0x7FF) :
    ofBytesFrom none ((v / 64 % 32 + 192) :: (v % 64 + 128) :: rest) =
      Char.ofNat v :: ofBytesFrom none rest := by
  have hlead := Lead.ofByte?_two (n := v / 64 % 32 + 192) (by omega) (by omega)
  have hvalue : 64 * (v / 64 % 32 + 192 - 0xC0) + (v % 64 + 128 - 0x80) = v := by omega
  rw [ofBytesFrom_lead _ (by omega) hlead, ofBytesFrom_last _ (by simp) (by simp; omega) rfl]
  dsimp only
  rw [hvalue]

private theorem ofBytesFrom_three (hl : 0x800 ≤ v) (hg : v ≤ 0xFFFF)
    (hv : v < 0xD800 ∨ 0xDFFF < v) :
    ofBytesFrom none ((v / 4096 % 16 + 224) :: (v / 64 % 64 + 128) :: (v % 64 + 128) :: rest) =
      Char.ofNat v :: ofBytesFrom none rest := by
  have hlead := Lead.ofByte?_three (n := v / 4096 % 16 + 224) (by omega) (by omega)
  have hvalue : 64 * (64 * (v / 4096 % 16 + 224 - 0xE0) + (v / 64 % 64 + 128 - 0x80)) +
      (v % 64 + 128 - 0x80) = v := by omega
  rw [ofBytesFrom_lead _ (by omega) hlead,
    ofBytesFrom_next _ (by dsimp only; split_ifs <;> omega) (by dsimp only; split_ifs <;> omega)
      (by simp),
    ofBytesFrom_last _ (by simp) (by simp; omega) rfl]
  dsimp only
  rw [hvalue]

private theorem ofBytesFrom_four (hl : 0x10000 ≤ v) (hg : v < 0x110000) :
    ofBytesFrom none ((v / 262144 % 8 + 240) :: (v / 4096 % 64 + 128) :: (v / 64 % 64 + 128) ::
      (v % 64 + 128) :: rest) = Char.ofNat v :: ofBytesFrom none rest := by
  have hlead := Lead.ofByte?_four (n := v / 262144 % 8 + 240) (by omega) (by omega)
  have hvalue : 64 * (64 * (64 * (v / 262144 % 8 + 240 - 0xF0) + (v / 4096 % 64 + 128 - 0x80)) +
      (v / 64 % 64 + 128 - 0x80)) + (v % 64 + 128 - 0x80) = v := by omega
  rw [ofBytesFrom_lead _ (by omega) hlead,
    ofBytesFrom_next _ (by dsimp only; split_ifs <;> omega) (by dsimp only; split_ifs <;> omega)
      (by simp),
    ofBytesFrom_next _ (by simp) (by simp; omega) (by simp),
    ofBytesFrom_last _ (by simp) (by simp; omega) rfl]
  dsimp only
  rw [hvalue]

end Characters

/-- The bytes of a character. -/
def bytesOf (c : Char) : List Nat := (String.utf8EncodeChar c).map UInt8.toNat

private theorem lt_of_mem_bytesOf {c : Char} {n : Nat} (h : n ∈ bytesOf c) : n < 256 := by
  obtain ⟨b, -, rfl⟩ := List.mem_map.mp h
  exact b.toNat_lt

theorem bytesOf_ascii {c : Char} (h : c.toNat < 128) : bytesOf c = [c.toNat] := by
  have hone : c.val.toNat ≤ 127 := Nat.le_of_lt_succ h
  have hbyte : (UInt8.ofNat c.val.toNat).toNat = c.val.toNat :=
    UInt8.toNat_ofNat_of_lt' (Nat.lt_trans h (by decide))
  rw [bytesOf, String.utf8EncodeChar, if_pos hone, List.map_singleton, hbyte]
  rfl

private theorem ofBytes_bytesOf (c : Char) (rest : List Nat) :
    ofBytes (bytesOf c ++ rest) = c :: ofBytes rest := by
  have hchar : Char.ofNat c.val.toNat = c := Char.ofNat_toNat c
  have hvalid : c.val.toNat < 0xD800 ∨ 0xDFFF < c.val.toNat ∧ c.val.toNat < 0x110000 := c.valid
  have hbyte : ∀ n < 256, (UInt8.ofNat n).toNat = n := fun n hn => UInt8.toNat_ofNat_of_lt' hn
  rw [bytesOf, String.utf8EncodeChar, ofBytes, ofBytes]
  generalize c.val.toNat = v at *
  split_ifs with hone htwo hthree <;>
    simp (disch := omega) only [List.map_cons, List.map_nil, List.cons_append, List.nil_append,
      hbyte]
  · rw [ofBytesFrom_single _ (by omega), hchar]
  · rw [ofBytesFrom_two _ (by omega) htwo, hchar]
  · rw [ofBytesFrom_three _ (by omega) hthree (by omega), hchar]
  · rw [ofBytesFrom_four _ (by omega) (by omega), hchar]

theorem ofBytes_flatMap_bytesOf (cs : List Char) : ofBytes (cs.flatMap bytesOf) = cs := by
  induction cs with
  | nil => rfl
  | cons c cs ih => rw [List.flatMap_cons, ofBytes_bytesOf, ih]

private theorem toList_loop (bytes : ByteArray) (i : Nat) (done : List UInt8) :
    ByteArray.toList.loop bytes i done = done.reverse ++ bytes.data.toList.drop i := by
  fun_induction ByteArray.toList.loop bytes i done with
  | case1 i done hi ih =>
    have hlt : i < bytes.data.toList.length := by simpa using hi
    have hget : bytes.get! i = bytes.data.toList[i] := by
      change bytes.data[i]! = _
      simp [getElem!_pos, hi]
    have hdrop : bytes.data.toList.drop i = bytes.get! i :: bytes.data.toList.drop (i + 1) := by
      rw [hget, List.drop_eq_getElem_cons hlt]
    rw [ih, hdrop, List.reverse_cons, List.append_assoc]
    rfl
  | case2 i done hi =>
    have hdrop : bytes.data.toList.drop i = [] := List.drop_eq_nil_of_le (by simpa using hi)
    rw [hdrop, List.append_nil]

private theorem toList_toUTF8 (text : String) :
    text.toUTF8.toList = text.toList.flatMap String.utf8EncodeChar := by
  have hbytes : text.toByteArray = (String.ofList text.toList).toByteArray := by
    rw [String.ofList_toList]
  rw [ByteArray.toList, toList_loop, String.toUTF8_eq_toByteArray, hbytes,
    String.toByteArray_ofList, List.utf8Encode, List.toList_data_toByteArray]
  rfl

private theorem pos_of_mem_bytesOf {c : Char} (hc : c ≠ '\x00') {n : Nat} (h : n ∈ bytesOf c) :
    0 < n := by
  have hchar : 0 < c.val.toNat := Nat.pos_of_ne_zero fun hzero =>
    hc (Char.toNat_inj.mp (show c.toNat = Char.toNat '\x00' from hzero))
  have hbyte : ∀ n < 256, (UInt8.ofNat n).toNat = n := fun n hn => UInt8.toNat_ofNat_of_lt' hn
  rw [bytesOf, String.utf8EncodeChar] at h
  generalize c.val.toNat = v at *
  split_ifs at h with hone htwo hthree <;>
    simp (disch := omega) only [List.map_cons, List.map_nil, List.mem_cons, List.not_mem_nil,
      or_false, hbyte] at h <;> omega

private theorem detect_of_ne_zero {bytes : List UInt8} (h : ∀ b ∈ bytes, b ≠ 0) :
    Encoding.detect bytes = .utf8 := by
  fun_cases Encoding.detect bytes <;> simp_all

/-- A text without the zero character is not taken for one in another encoding. -/
theorem reinterpret_of_notMem {text : String} (h : '\x00' ∉ text.toList) :
    reinterpret text = .ok text.toList := by
  have hbytes : ∀ b ∈ text.toUTF8.toList, b ≠ 0 := by
    intro b hb hzero
    rw [toList_toUTF8] at hb
    obtain ⟨c, hc, hb⟩ := List.mem_flatMap.mp hb
    have hpos := pos_of_mem_bytesOf (fun hnul => h (hnul ▸ hc)) (List.mem_map_of_mem hb)
    rw [hzero] at hpos
    cases hpos
  rw [reinterpret, detect_of_ne_zero hbytes]

private theorem percentChars_eq (c : Char) : percentChars c = (bytesOf c).flatMap fun n =>
    ['%', (n / 16).digitChar.toUpper, (n % 16).digitChar.toUpper] := by
  rw [percentChars, toList_toUTF8, String.toList_singleton, List.flatMap_singleton, bytesOf,
    List.flatMap_map]
  simp [hexByte]

private theorem hexDigit {n : Nat} (hn : n < 16) :
    isHexDigit n.digitChar.toUpper = true ∧ hexValue n.digitChar.toUpper = n := by
  revert n
  decide

private theorem percentBytes_coded {n : Nat} (hn : n < 256) (rest : List Char) :
    percentBytes ('%' :: (n / 16).digitChar.toUpper :: (n % 16).digitChar.toUpper :: rest) =
      (n :: (percentBytes rest).1, (percentBytes rest).2) := by
  obtain ⟨hhigh, hhighValue⟩ := hexDigit (n := n / 16) (by omega)
  obtain ⟨hlow, hlowValue⟩ := hexDigit (n := n % 16) (by omega)
  have hvalue : 16 * (n / 16) + n % 16 = n := by omega
  rw [percentBytes, hhigh, hlow, hhighValue, hlowValue, hvalue]
  rfl

theorem percentBytes_plain {c : Char} (hc : c ≠ '%') (hascii : c.toNat < 128) (rest : List Char) :
    percentBytes (c :: rest) = (c.toNat :: (percentBytes rest).1, (percentBytes rest).2) := by
  rw [percentBytes, if_pos hascii]
  intro a b rest' h
  exact absurd h hc

theorem percentDecode_of_bytes {cs : List Char} {bytes : List Nat}
    (h : percentBytes cs = (bytes, [])) : percentDecode cs = ofBytes bytes := by
  rw [percentDecode]
  split
  · rw [h, List.append_nil]
  · next hrest =>
    rw [h] at hrest
    cases hrest

theorem percentBytes_percentChars (c : Char) (rest : List Char) :
    percentBytes (percentChars c ++ rest) =
      (bytesOf c ++ (percentBytes rest).1, (percentBytes rest).2) := by
  have hbytes : ∀ n ∈ bytesOf c, n < 256 := fun n => lt_of_mem_bytesOf
  rw [percentChars_eq]
  generalize bytesOf c = bytes at *
  induction bytes with
  | nil => rfl
  | cons n bytes ih =>
    obtain ⟨hn, hbytes⟩ := List.forall_mem_cons.mp hbytes
    simp only [List.flatMap_cons, List.cons_append, List.nil_append]
    rw [percentBytes_coded hn, ih hbytes]

theorem mem_percentChars {c d : Char} (h : d ∈ percentChars c) : d = '%' ∨ isHexDigit d = true := by
  rw [percentChars_eq] at h
  obtain ⟨n, hn, hd⟩ := List.mem_flatMap.mp h
  have hlt := lt_of_mem_bytesOf hn
  simp only [List.mem_cons, List.not_mem_nil, or_false] at hd
  rcases hd with rfl | rfl | rfl
  · exact .inl rfl
  · exact .inr (hexDigit (by omega)).1
  · exact .inr (hexDigit (by omega)).1

end BlockFsck.Text
