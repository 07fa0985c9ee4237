import BlockFsck.Metadata
import BlockFsck.Proofs.Namespace.Subtree
import BlockFsck.Proofs.Namespace.Action

/-!
# Changes that are asked for again

A namespace that has moved or deleted an entry refuses to do so once more: the entry is not there
any more. So however often a change is asked for, it is made once, and only the first request is
told that it was.
-/

namespace BlockFsck

/-- An entry is to be moved, or a file or an empty directory to be deleted. -/
inductive Change
  | rename (source target : Path)
  | delete (path : Path)

namespace Change

variable {ns : Namespace} {change : Change}

def Valid : Change → Prop
  | rename source target => source.Valid ∧ target.Valid
  | delete path => path.Valid

/-- The query that asks for the change. -/
def query : Change → Query
  | rename source target => .rename source.text target.text
  | delete path => .delete path.text false

/-- The namespace makes the change if it is asked for. -/
def isGranted : Change → Namespace → Bool
  | rename source target, ns => ns.CanRename source target
  | delete path, ns => path ≠ [] && (ns.node? path).isSome && ns.isEmptyBelow path

/-- The namespace with the change made. -/
def applied : Change → Namespace → Namespace
  | rename source target, ns => ns.moved source target
  | delete path, ns => ns.removed path

/-- The namespace after it was asked for the change. -/
def asked (change : Change) (ns : Namespace) : Namespace :=
  if change.isGranted ns then change.applied ns else ns

private theorem isGranted_applied (hg : change.isGranted ns = true) :
    change.isGranted (change.applied ns) = false := by
  cases change with
  | rename source target =>
    have hcan : ns.CanRename source target := of_decide_eq_true hg
    have ⟨_, _, _, hthere, _, hfree⟩ := hcan
    -- a free place is not above anything
    have hapart : ¬ target <+: source := fun hup => hthere (Namespace.none_under_none hfree hup)
    have hgone : ((rename source target).applied ns).node? source = none := by
      rw [applied, Namespace.node?_moved hcan, if_neg hapart, if_pos (List.prefix_refl source)]
    exact decide_eq_false fun hagain => hagain.2.2.2.1 hgone
  | delete path =>
    obtain ⟨⟨hne, -⟩, -⟩ : (path ≠ [] ∧ _) ∧ _ := by simpa [isGranted] using hg
    have hgone : ((delete path).applied ns).node? path = none := by
      rw [applied, Namespace.node?_removed hne, if_pos (List.prefix_refl path)]
    simp [isGranted, hgone]

theorem isGranted_asked (change : Change) (ns : Namespace) :
    change.isGranted (change.asked ns) = false := by
  rw [asked]
  cases hg : change.isGranted ns with
  | true => simpa using isGranted_applied hg
  | false => simpa using hg

theorem asked_iterate (change : Change) (ns : Namespace) (count : Nat) :
    change.asked^[count + 1] ns = change.asked ns := by
  induction count with
  | zero => rfl
  | succ count ih =>
    rw [Function.iterate_succ_apply', ih, asked, if_neg]
    simp [isGranted_asked]

theorem isGranted_iterate (change : Change) (ns : Namespace) (count : Nat) :
    change.isGranted (change.asked^[count + 1] ns) = false := by
  rw [asked_iterate, isGranted_asked]

end Change

end BlockFsck
