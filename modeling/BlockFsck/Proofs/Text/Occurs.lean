import Mathlib.Data.List.Infix

/-!
# Words in a text

A word does not go over the boundary between two texts if on one side of it there is no letter that
the word could have there.
-/

namespace BlockFsck.Text

/-- The word stands somewhere in the text. -/
def Occurs (word text : String) : Prop := word.toList <:+: text.toList

instance (word text : String) : Decidable (Occurs word text) :=
  inferInstanceAs (Decidable (word.toList <:+: text.toList))

/-- The last letter of the text is not of the kind. -/
def EndsWithout (p : Char → Bool) (text : String) : Prop :=
  text.toList.getLast?.any (fun c => !p c) = true

/-- The first letter of the text is not of the kind. -/
def StartsWithout (p : Char → Bool) (text : String) : Prop :=
  text.toList.head?.any (fun c => !p c) = true

instance (p : Char → Bool) (text : String) : Decidable (EndsWithout p text) :=
  inferInstanceAs (Decidable (_ = _))

instance (p : Char → Bool) (text : String) : Decidable (StartsWithout p text) :=
  inferInstanceAs (Decidable (_ = _))

/-- No word of letters of the kind goes over the boundary between the texts. -/
def Apart (p : Char → Bool) (a b : String) : Prop := EndsWithout p a ∨ StartsWithout p b

variable {p : Char → Bool} {word a b : String}

theorem Occurs.trans {part text : String} (h : Occurs word part) (hpart : Occurs part text) :
    Occurs word text := List.IsInfix.trans h hpart

theorem occurs_append_left (a b : String) : Occurs a (a ++ b) := by
  rw [Occurs, String.toList_append]
  exact (List.prefix_append _ _).isInfix

theorem occurs_append_right (a b : String) : Occurs b (a ++ b) := by
  rw [Occurs, String.toList_append]
  exact (List.suffix_append _ _).isInfix

theorem EndsWithout.append (hb : EndsWithout p b) (a : String) : EndsWithout p (a ++ b) := by
  obtain ⟨last, hlast, hp⟩ := (Option.any_eq_true _ _).mp hb
  rw [EndsWithout, String.toList_append, List.getLast?_append, hlast, Option.some_or]
  exact hp

theorem StartsWithout.append (ha : StartsWithout p a) (b : String) : StartsWithout p (a ++ b) := by
  obtain ⟨first, hfirst, hp⟩ := (Option.any_eq_true _ _).mp ha
  rw [StartsWithout, String.toList_append, List.head?_append, hfirst, Option.some_or]
  exact hp

private theorem Apart.not_both (h : Apart p a b) {left right : List Char} {c d : Char}
    (hleft : left ++ [c] <:+ a.toList) (hright : d :: right <+: b.toList) :
    ¬ (p c = true ∧ p d = true) := by
  intro ⟨hc, hd⟩
  obtain ⟨before, ha⟩ := hleft
  obtain ⟨after, hb⟩ := hright
  rcases h with hends | hstarts
  · rw [EndsWithout, ← ha, ← List.append_assoc, List.getLast?_concat, Option.any_some, hc] at hends
    cases hends
  · rw [StartsWithout, ← hb, List.cons_append, List.head?_cons, Option.any_some, hd] at hstarts
    cases hstarts

/-- A word of letters of the kind stands in one of two texts that are apart. -/
theorem Occurs.of_append (h : Occurs word (a ++ b)) (hword : word.toList.all p = true)
    (hapart : Apart p a b) : Occurs word a ∨ Occurs word b := by
  rw [Occurs, String.toList_append, List.infix_append_iff_ne_nil] at h
  rcases h with ha | hb | ⟨first, second, hfirst, hsecond, hsplit, hleft, hright⟩
  · exact .inl ha
  · exact .inr hb
  · exfalso
    obtain ⟨before, c, rfl⟩ := (List.eq_nil_or_concat' first).resolve_left hfirst
    obtain ⟨d, after, rfl⟩ := List.exists_cons_of_ne_nil hsecond
    rw [List.all_eq_true, hsplit] at hword
    exact hapart.not_both hleft hright ⟨hword c (by simp), hword d (by simp)⟩

/-- In two texts that are apart, what comes before a word of letters of the kind stands in one text
with the word. -/
theorem Occurs.of_append_word {lead : String} (h : Occurs (lead ++ word) (a ++ b))
    (hword : word.toList.all p = true) (hapart : Apart p a b) (hb : ¬ Occurs word b) :
    Occurs (lead ++ word) a := by
  rw [Occurs, String.toList_append (s := a), List.infix_append_iff_ne_nil] at h
  rcases h with ha | hright | ⟨first, second, hfirst, hsecond, hsplit, hleft, hright⟩
  · exact ha
  · exact absurd ((occurs_append_right lead word).trans hright) hb
  · exfalso
    rw [String.toList_append, List.append_eq_append_iff] at hsplit
    rcases hsplit with ⟨head, rfl, hword'⟩ | ⟨tail, hlead, rfl⟩
    · -- the boundary is in the word, or before it
      rcases List.eq_nil_or_concat' head with rfl | ⟨before, c, rfl⟩
      · rw [Occurs, hword', List.nil_append] at hb
        exact hb hright.isInfix
      · obtain ⟨d, after, rfl⟩ := List.exists_cons_of_ne_nil hsecond
        rw [List.all_eq_true, hword'] at hword
        rw [← List.append_assoc] at hleft
        exact hapart.not_both hleft hright ⟨hword c (by simp), hword d (by simp)⟩
    · exact hb ((List.suffix_append tail word.toList).isInfix.trans hright.isInfix)

end BlockFsck.Text
