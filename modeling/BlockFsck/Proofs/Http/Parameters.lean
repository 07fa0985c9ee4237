import BlockFsck.Http.Parameters
import BlockFsck.Proofs.Text.Percent
import Mathlib.Data.List.Basic

/-!
# Parameters come through

The parameters of a request are read as they were written, if no name is there twice.
-/

namespace BlockFsck.Http.Parameters

open Text (bytesOf)

private theorem encode_cons (c : Char) (cs : List Char) :
    encode (String.ofList (c :: cs)) =
      encode (String.ofList [c]) ++ encode (String.ofList cs) := by
  simp [encode]

private theorem plain_of_isUnreserved {c : Char} (h : Text.isUnreserved c = true) :
    c.toNat < 128 ∧ c ≠ '%' ∧ c ≠ '+' ∧ c ≠ '&' ∧ c ≠ '=' := by
  have hascii : c.toNat < 128 := by
    rw [Text.isUnreserved, Bool.or_eq_true] at h
    rcases h with h | h
    · delta Char.isAlphanum Char.isAlpha Char.isUpper Char.isLower Char.isDigit at h
      simp only [Bool.or_eq_true, Bool.and_eq_true, decide_eq_true_eq, UInt32.le_iff_toNat_le,
        ge_iff_le] at h
      change c.val.toNat < 128
      simp only [Char.reduceVal, UInt32.reduceToNat] at h
      omega
    · simp at h
      rcases h with rfl | rfl | rfl | rfl <;> decide
  refine ⟨hascii, ?_, ?_, ?_, ?_⟩ <;> rintro rfl <;> exact absurd h (by decide)

private theorem map_percentChars (c : Char) :
    (Text.percentChars c).map (fun c => if c = '+' then ' ' else c) = Text.percentChars c := by
  have hsame : ∀ d ∈ Text.percentChars c, (if d = '+' then ' ' else d) = d := by
    intro d hd
    rw [if_neg]
    rintro rfl
    rcases Text.mem_percentChars hd with h | h <;> exact absurd h (by decide)
  rw [List.map_congr_left hsame, List.map_id']

private theorem percentBytes_encode (cs : List Char) :
    Text.percentBytes ((encode (String.ofList cs)).map fun c => if c = '+' then ' ' else c) =
      (cs.flatMap bytesOf, []) := by
  induction cs with
  | nil => rfl
  | cons c cs ih =>
    rw [encode_cons, List.map_append, List.flatMap_cons]
    have hfront : encode (String.ofList [c]) =
        if c = ' ' then ['+'] else if Text.isUnreserved c then [c] else Text.percentChars c := by
      simp [encode]
    rw [hfront]
    -- a space is a plus, a plain character is one byte, and all others are percent signs
    split_ifs with hspace hplain
    · subst hspace
      simp only [List.map_cons, List.map_nil, List.cons_append, List.nil_append, if_true]
      rw [Text.percentBytes_plain (by decide) (by decide), ih, Text.bytesOf_ascii (by decide)]
      rfl
    · obtain ⟨hascii, hpercent, hplus, -, -⟩ := plain_of_isUnreserved hplain
      simp only [List.map_cons, List.map_nil, List.cons_append, List.nil_append, if_neg hplus]
      rw [Text.percentBytes_plain hpercent hascii, ih, Text.bytesOf_ascii hascii]
      rfl
    · rw [map_percentChars, Text.percentBytes_percentChars, ih]

private theorem decode_encode (text : String) : decode (encode text) = text := by
  have hbytes := percentBytes_encode text.toList
  rw [String.ofList_toList] at hbytes
  rw [decode, Text.percentDecode_of_bytes hbytes, Text.ofBytes_flatMap_bytesOf,
    String.ofList_toList]

private theorem not_mem_encode {separator : Char} (h : separator = '&' ∨ separator = '=')
    (text : String) : separator ∉ encode text := by
  intro hmem
  obtain ⟨c, -, hc⟩ := List.mem_flatMap.mp hmem
  split_ifs at hc with hspace hplain
  · rcases h with rfl | rfl <;> exact absurd hc (by decide)
  · obtain ⟨-, -, -, hand, hequals⟩ := plain_of_isUnreserved hplain
    rw [List.mem_singleton] at hc
    rcases h with rfl | rfl
    · exact hand hc.symm
    · exact hequals hc.symm
  · rcases h with rfl | rfl <;> rcases Text.mem_percentChars hc with h | h <;>
      exact absurd h (by decide)

private theorem pairOf_encode (name value : String) :
    pairOf (encode name ++ '=' :: encode value) = (name, value) := by
  have hname : ∀ c ∈ encode name, decide (c ≠ '=') = true := by
    intro c hc
    have hne : c ≠ '=' := by
      rintro rfl
      exact not_mem_encode (.inr rfl) name hc
    simpa using hne
  rw [pairOf, List.takeWhile_append_of_pos hname, List.dropWhile_append_of_pos hname]
  simp [decode_encode]

private theorem eraseDups_of_nodup {names : List String} (h : names.Nodup) :
    names.eraseDups = names := by
  induction names with
  | nil => rfl
  | cons name names ih =>
    obtain ⟨hname, hnodup⟩ := List.nodup_cons.mp h
    have hkept : ∀ other ∈ names, (!other == name) = true := by
      intro other hother
      have hne : other ≠ name := by
        rintro rfl
        exact hname hother
      simpa using hne
    rw [List.eraseDups_cons, List.filter_eq_self.mpr hkept, ih hnodup]

private theorem filter_name {pairs : List (String × String)} (h : (pairs.map Prod.fst).Nodup)
    {pair : String × String} (hpair : pair ∈ pairs) : pairs.filter (·.1 = pair.1) = [pair] := by
  induction pairs with
  | nil => cases hpair
  | cons first pairs ih =>
    obtain ⟨hfirst, hnodup⟩ := List.nodup_cons.mp h
    rcases List.mem_cons.mp hpair with rfl | hlater
    · have hnone : pairs.filter (·.1 = pair.1) = [] := by
        rw [List.filter_eq_nil_iff]
        intro other hother heq
        exact hfirst (List.mem_map.mpr ⟨other, hother, by simpa using heq⟩)
      rw [List.filter_cons_of_pos (by simp), hnone]
    · have hne : first.1 ≠ pair.1 := by
        intro heq
        exact hfirst (heq ▸ List.mem_map_of_mem hlater)
      rw [List.filter_cons_of_neg (by simpa using hne), ih hnodup hlater]

private theorem grouped_eq {pairs : List (String × String)} (h : (pairs.map Prod.fst).Nodup) :
    grouped pairs = pairs := by
  have hone : ∀ pair ∈ pairs, pairs.filter (·.1 = pair.1) = [pair] := fun pair => filter_name h
  rw [grouped, eraseDups_of_nodup h, List.flatMap_map, List.flatMap_congr hone,
    List.flatMap_singleton']

/-- What is written is read as it was. -/
theorem ofText_text {pairs : List (String × String)} (h : (pairs.map Prod.fst).Nodup) :
    ofText (text pairs) = pairs := by
  cases pairs with
  | nil => rfl
  | cons pair pairs =>
    let part : String × String → List Char := fun pair => encode pair.1 ++ '=' :: encode pair.2
    have hwhole : ∀ cs ∈ (pair :: pairs).map part, '&' ∉ cs := by
      intro cs hcs
      obtain ⟨⟨name, value⟩, -, rfl⟩ := List.mem_map.mp hcs
      have hname := not_mem_encode (.inl rfl) name
      have hvalue := not_mem_encode (.inl rfl) value
      simp [part, hname, hvalue]
    have hkept : ∀ cs ∈ (pair :: pairs).map part, decide (cs ≠ []) = true := by
      intro cs hcs
      obtain ⟨⟨name, value⟩, -, rfl⟩ := List.mem_map.mp hcs
      simp [part]
    have hread : pairOf ∘ part = id := funext fun pair => pairOf_encode pair.1 pair.2
    have hwritten : text (pair :: pairs) =
        String.ofList (List.intercalate ['&'] ((pair :: pairs).map part)) := rfl
    rw [ofText, hwritten, String.toList_ofList, Path.pieces_intercalate hwhole (by simp),
      List.filter_eq_self.mpr hkept, List.map_map, hread, List.map_id, grouped_eq h]

end BlockFsck.Http.Parameters
