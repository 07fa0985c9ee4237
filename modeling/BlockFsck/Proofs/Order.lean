import Mathlib.Data.List.Sort
import Mathlib.Data.String.Basic
import BlockFsck.Order

/-!
# Lists sorted by name

Sorting rearranges, and what it leaves is ascending; with different names it is strictly so, which
leaves one possible order.
-/

namespace BlockFsck

variable {α : Type} {key : α → String}

theorem sortedBy_perm (xs : List α) : (sortedBy key xs).Perm xs :=
  List.mergeSort_perm xs _

@[simp] theorem mem_sortedBy {x : α} {xs : List α} : x ∈ sortedBy key xs ↔ x ∈ xs :=
  (sortedBy_perm xs).mem_iff

private theorem sortedBy_ascending (xs : List α) : (sortedBy key xs).Pairwise (key · ≤ key ·) := by
  have trans : ∀ x y z : α, decide (key x ≤ key y) = true → decide (key y ≤ key z) = true →
      decide (key x ≤ key z) = true := by
    intro x y z hxy hyz
    simpa using le_trans (of_decide_eq_true hxy) (of_decide_eq_true hyz)
  have total : ∀ x y : α, (decide (key x ≤ key y) || decide (key y ≤ key x)) = true := by
    intro x y
    simpa using le_total (key x) (key y)
  exact (List.pairwise_mergeSort trans total xs).imp of_decide_eq_true

theorem sortedBy_eq_self {xs : List α} (h : xs.Pairwise (key · ≤ key ·)) : sortedBy key xs = xs :=
  List.mergeSort_of_pairwise (h.imp decide_eq_true)

theorem sortedBy_strict {xs : List α} (h : (xs.map key).Nodup) :
    (sortedBy key xs).Pairwise (key · < key ·) := by
  have different : ((sortedBy key xs).map key).Nodup :=
    ((sortedBy_perm xs).map key).nodup_iff.mpr h
  rw [List.Nodup, List.pairwise_map] at different
  exact (different.and (sortedBy_ascending xs)).imp fun ⟨hne, hle⟩ => lt_of_le_of_ne hle hne

/-- Items with different names are sorted in one way, whatever order they came in. -/
theorem sortedBy_of_perm {xs ys : List α} (h : xs.Perm ys) (hn : (ys.map key).Nodup) :
    sortedBy key xs = sortedBy key ys := by
  have hx : (xs.map key).Nodup := (h.map key).nodup_iff.mpr hn
  have hsame : (sortedBy key xs).Perm (sortedBy key ys) :=
    (sortedBy_perm xs).trans (h.trans (sortedBy_perm ys).symm)
  exact hsame.eq_of_pairwise (fun _ _ _ _ hab hba => absurd hab (lt_asymm hba))
    (sortedBy_strict hx) (sortedBy_strict hn)

theorem sortedTexts_map (f : α → String) (xs : List α) :
    sortedTexts (xs.map f) = (sortedBy f xs).map f := by
  rw [sortedTexts, sortedBy, sortedBy, List.map_mergeSort]
  exact fun _ _ _ _ => rfl

end BlockFsck
