import BlockFsck.Http.Address
import BlockFsck.Proofs.Http.Parameters
import Mathlib.Data.List.TakeWhile

/-!
# Addresses of requests

A path that stands for itself, below an address that names a host only, is the path that the service
sees. The parameters of the request are those that it sees.
-/

namespace BlockFsck.Http.Address

private theorem copy_dropWhile_char (text : String) (c : Char) :
    (text.dropWhile c).copy = String.ofList (text.toList.dropWhile (· == c)) := by
  have hsplit : (text.takeWhile c).copy.toList ++ (text.dropWhile c).copy.toList = text.toList := by
    rw [← String.toList_append, String.takeWhile_append_dropWhile]
  have hfront : (text.takeWhile c).copy.toList.all (· == c) = true := by
    rw [← String.Slice.all_bool_eq, ← String.Slice.all_char_eq_all_beq]
    exact String.all_takeWhile
  have hrest : ((text.dropWhile c).copy.toList.head? == some c) = false := by
    rw [← String.Slice.startsWith_char_eq_head?]
    exact String.startsWith_dropWhile
  rw [← hsplit, List.dropWhile_append_of_pos (by simpa using hfront), ← String.toList_inj,
    String.toList_ofList]
  cases hlist : (text.dropWhile c).copy.toList with
  | nil => rfl
  | cons first rest =>
    rw [hlist] at hrest
    rw [List.dropWhile_cons_of_neg]
    simpa using hrest

private theorem splitFirst_of_not_mem {c : Char} {cs : List Char} (h : c ∉ cs) :
    splitFirst c cs = (cs, none) := by
  have hkept : ∀ d ∈ cs, decide (d ≠ c) = true := by
    intro d hd
    have hne : d ≠ c := by
      rintro rfl
      exact h hd
    simpa using hne
  rw [splitFirst, List.takeWhile_eq_self_iff.mpr hkept]
  simp [h]

/-- The path stands for itself: nothing in it is written another way or has another meaning. -/
structure IsPlain (path : String) : Prop where
  rooted : "/" ++ String.ofList (path.toList.dropWhile (· == '/')) = path
  unasked : '?' ∉ path.toList
  encoded : encodePath path.toList = path
  decoded : String.ofList (Text.percentDecode (Text.percentDecode path.toList)) = path
  short : path.length ≤ maxLength

variable {a : Address} {path : String}

theorem IsPlain.plainPath (h : IsPlain path) (hpath : a.path = path) : a.plainPath = path := by
  have hne : path ≠ "" := by
    rintro rfl
    have hslash := h.rooted
    simp at hslash
  rw [Address.plainPath, hpath, if_neg hne]
  exact h.decoded

private theorem checked_eq_ok : a.checked = .ok a ↔ a.authority.length ≤ maxLength ∧
    a.path.length ≤ maxLength ∧ (a.query.getD "").length ≤ maxLength ∧
    (a.fragment.getD "").length ≤ maxLength := by
  let parts := [("authority", a.authority), ("path", a.path), ("query", a.query.getD ""),
    ("fragment", a.fragment.getD "")]
  have hfound : a.checked = .ok a ↔
      parts.find? (fun part => maxLength < part.2.length) = none := by
    rw [checked]
    split
    · next hfind =>
      have hsome : parts.find? (fun part => maxLength < part.2.length) = some _ := hfind
      simp [hsome]
    · next hfind =>
      have hnone : parts.find? (fun part => maxLength < part.2.length) = none := hfind
      simp [hnone]
  rw [hfound]
  simp [parts]

theorem checked_at (hchecked : a.checked = .ok a) (hshort : path.length ≤ maxLength) :
    ({ a with path } : Address).checked = .ok { a with path } := by
  obtain ⟨hauthority, -, hquery, hfragment⟩ := checked_eq_ok.mp hchecked
  exact checked_eq_ok.mpr ⟨hauthority, hshort, hquery, hfragment⟩

theorem rooted_eq (hroot : a.location = "/") : a.rooted = .ok a := by
  have hends : a.location.endsWith "/" = true := by
    rw [hroot, String.endsWith_eq_endsWith_toSlice]
    refine String.Slice.endsWith_string_iff.mpr ?_
    simp
  rw [rooted, if_pos hends]

theorem below_eq (hroot : a.location = "/") (hquery : a.query = none)
    (hchecked : a.checked = .ok a) (h : IsPlain path) : a.below path = .ok { a with path } := by
  have hlocation : a.location ++ (path.dropWhile '/').copy = path := by
    rw [hroot, copy_dropWhile_char]
    exact h.rooted
  have htarget : ({ a with path := String.ofList path.toList, query := none } : Address) =
      { a with path } := by
    rw [String.ofList_toList, hquery]
  rw [below, hlocation, withLocation, splitFirst_of_not_mem h.unasked]
  dsimp only [Option.map_none]
  rw [htarget, checked_at hchecked h.short]
  dsimp only [Except.map]
  rw [h.encoded]

theorem asking_eq (hchecked : a.checked = .ok a) (hquery : a.query = none)
    {pairs : List (String × String)} (hnames : (pairs.map Prod.fst).Nodup)
    (hshort : (Parameters.text pairs).length ≤ maxLength) :
    ∃ asking, a.asking pairs = .ok asking ∧ asking.path = a.path ∧ asking.parameters = pairs := by
  obtain ⟨hauthority, hpath, -, hfragment⟩ := checked_eq_ok.mp hchecked
  rw [asking]
  split_ifs with hnone
  · refine ⟨a, rfl, rfl, ?_⟩
    rw [parameters, hquery, hnone]
    rfl
  · have htarget : ({ a with query := some (Parameters.text pairs) } : Address).checked =
        .ok { a with query := some (Parameters.text pairs) } :=
      checked_eq_ok.mpr ⟨hauthority, hpath, hshort, hfragment⟩
    exact ⟨_, htarget, rfl, Parameters.ofText_text hnames⟩

end BlockFsck.Http.Address
