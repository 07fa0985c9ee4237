/-!
# Sorting by name

Texts are ordered by code point. Sorting is stable: items with equal keys keep their order.
-/

namespace BlockFsck

def sortedBy {α : Type} (key : α → String) (xs : List α) : List α :=
  xs.mergeSort fun x y => key x ≤ key y

def sortedTexts (xs : List String) : List String := sortedBy id xs

end BlockFsck
