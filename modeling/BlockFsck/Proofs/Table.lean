import Mathlib.Data.List.Sort
import BlockFsck.Table

/-!
# Tables without repeated keys

No write repeats a key, so that an entry of the list is the same as an answer of the table
(`get?_eq_some_iff`).
-/

namespace BlockFsck.Table

variable {κ ν μ : Type}

theorem keys_restrict (keep : κ → Bool) (t : Table κ ν) :
    (t.restrict keep).keys = t.keys.filter keep := by
  simp [keys, restrict, List.filter_map, Function.comp_def]

theorem keys_extend (t : Table κ ν) (added : List (κ × ν)) :
    (t.extend added).keys = t.keys ++ added.map Prod.fst := by
  simp [keys, extend]

theorem extend_append (t : Table κ ν) (added more : List (κ × ν)) :
    (t.extend added).extend more = t.extend (added ++ more) := by
  rw [extend, extend, extend, List.append_assoc]

theorem keys_restrict_nodup {t : Table κ ν} (h : t.keys.Nodup) (keep : κ → Bool) :
    (t.restrict keep).keys.Nodup :=
  keys_restrict keep t ▸ h.filter _

variable [DecidableEq κ]

private theorem mem_of_getIn {k : κ} {v : ν} {es : List (κ × ν)} (h : getIn k es = some v) :
    (k, v) ∈ es := by
  induction es with
  | nil => simp [getIn] at h
  | cons e es ih =>
    obtain ⟨l, w⟩ := e
    by_cases hl : l = k
    · simp only [getIn, hl, if_true, Option.some.injEq] at h
      simp [hl, h]
    · rw [getIn, if_neg hl] at h
      exact List.mem_cons_of_mem _ (ih h)

theorem mem_of_get? {t : Table κ ν} {k : κ} {v : ν} (h : t.get? k = some v) :
    (k, v) ∈ t.entries :=
  mem_of_getIn h

private theorem getIn_of_mem {k : κ} {v : ν} {es : List (κ × ν)}
    (hn : (es.map Prod.fst).Nodup) (h : (k, v) ∈ es) : getIn k es = some v := by
  induction es with
  | nil => simp at h
  | cons e es ih =>
    obtain ⟨l, w⟩ := e
    rw [List.map_cons, List.nodup_cons] at hn
    rcases List.mem_cons.mp h with heq | hmem
    · cases heq
      simp [getIn]
    · have hl : l ≠ k := by
        rintro rfl
        exact hn.1 (List.mem_map.mpr ⟨_, hmem, rfl⟩)
      rw [getIn, if_neg hl]
      exact ih hn.2 hmem

theorem get?_eq_some_iff {t : Table κ ν} (hn : t.keys.Nodup) {k : κ} {v : ν} :
    t.get? k = some v ↔ (k, v) ∈ t.entries :=
  ⟨mem_of_get?, getIn_of_mem hn⟩

theorem get?_eq_none_iff {t : Table κ ν} {k : κ} : t.get? k = none ↔ k ∉ t.keys := by
  obtain ⟨es⟩ := t
  induction es with
  | nil => simp [get?, getIn, keys]
  | cons e es ih =>
    obtain ⟨l, w⟩ := e
    by_cases hl : l = k
    · simp [get?, getIn, keys, hl]
    · have hk : k ≠ l := fun h => hl h.symm
      simpa [get?, getIn, keys, hl, hk] using ih

theorem isSome_get? {t : Table κ ν} {k : κ} : (t.get? k).isSome ↔ k ∈ t.keys := by
  rw [← not_iff_not, ← get?_eq_none_iff, Bool.not_eq_true, Option.isSome_eq_false_iff,
    Option.isNone_iff_eq_none]

private theorem keys_setIn (k : κ) (v : ν) (es : List (κ × ν)) :
    (setIn k v es).map Prod.fst =
      if k ∈ es.map Prod.fst then es.map Prod.fst else es.map Prod.fst ++ [k] := by
  induction es with
  | nil => simp [setIn]
  | cons e es ih =>
    obtain ⟨l, w⟩ := e
    by_cases hl : l = k
    · simp [setIn, hl]
    · have hk : k ≠ l := fun h => hl h.symm
      simp only [setIn, if_neg hl, List.map_cons, ih, List.mem_cons, hk, false_or]
      split_ifs <;> rfl

theorem mem_set {t : Table κ ν} {k : κ} {v : ν} {e : κ × ν} (h : e ∈ (t.set k v).entries) :
    e = (k, v) ∨ e ∈ t.entries := by
  obtain ⟨es⟩ := t
  induction es with
  | nil => exact .inl (List.mem_singleton.mp h)
  | cons e' es ih =>
    obtain ⟨l, w⟩ := e'
    by_cases hl : l = k
    · subst hl
      simp only [set, setIn, if_true] at h
      exact (List.mem_cons.mp h).imp_right (List.mem_cons_of_mem _)
    · simp only [set, setIn, if_neg hl] at h
      rcases List.mem_cons.mp h with rfl | h
      · exact .inr (List.mem_cons_self ..)
      · exact (ih h).imp_right (List.mem_cons_of_mem _)

theorem keys_set (t : Table κ ν) (k : κ) (v : ν) :
    (t.set k v).keys = if k ∈ t.keys then t.keys else t.keys ++ [k] :=
  keys_setIn k v t.entries

theorem keys_set_nodup {t : Table κ ν} (h : t.keys.Nodup) (k : κ) (v : ν) :
    (t.set k v).keys.Nodup := by
  rw [keys_set]
  split_ifs with hk
  · exact h
  · refine List.nodup_append.mpr ⟨h, List.nodup_singleton k, ?_⟩
    rintro a ha b hb rfl
    exact hk (List.mem_singleton.mp hb ▸ ha)

private theorem set_of_none {t : Table κ ν} {k : κ} (h : t.get? k = none) (v : ν) :
    (t.set k v).entries = t.entries ++ [(k, v)] := by
  obtain ⟨es⟩ := t
  induction es with
  | nil => rfl
  | cons e es ih =>
    obtain ⟨l, w⟩ := e
    have hl : l ≠ k := by
      rintro rfl
      simp [get?, getIn] at h
    have rest : (⟨es⟩ : Table κ ν).get? k = none := by simpa [get?, getIn, hl] using h
    simpa [set, setIn, hl] using ih rest

private theorem set_of_some {t : Table κ ν} {k : κ} {w : ν} (h : t.get? k = some w) (v : ν) :
    ∃ before after, t.entries = before ++ (k, w) :: after ∧
      (t.set k v).entries = before ++ (k, v) :: after := by
  obtain ⟨es⟩ := t
  induction es with
  | nil => simp [get?, getIn] at h
  | cons e es ih =>
    obtain ⟨l, u⟩ := e
    by_cases hl : l = k
    · have hu : u = w := by simpa [get?, getIn, hl] using h
      exact ⟨[], es, by simp [hl, hu], by simp [set, setIn, hl]⟩
    · have rest : (⟨es⟩ : Table κ ν).get? k = some w := by simpa [get?, getIn, hl] using h
      obtain ⟨before, after, hes, hset⟩ := ih rest
      refine ⟨(l, u) :: before, after, by simpa using hes, ?_⟩
      simpa [set, setIn, hl] using hset

theorem set_self {t : Table κ ν} {k : κ} {v : ν} (h : t.get? k = some v) : t.set k v = t := by
  obtain ⟨before, after, ht, hset⟩ := set_of_some h v
  have hentries : (t.set k v).entries = t.entries := hset.trans ht.symm
  exact congrArg Table.mk hentries

private theorem keys_eraseIn (k : κ) (es : List (κ × ν)) :
    (eraseIn k es).map Prod.fst = (es.map Prod.fst).filter (· ≠ k) := by
  fun_induction eraseIn k es <;> simp_all

theorem keys_erase_nodup {t : Table κ ν} (h : t.keys.Nodup) (k : κ) : (t.erase k).keys.Nodup := by
  have : (t.erase k).keys = t.keys.filter (· ≠ k) := keys_eraseIn k t.entries
  exact this ▸ h.filter _

private theorem keys_update_nodup {t : Table κ ν} (h : t.keys.Nodup) (pairs : List (κ × ν)) :
    (t.update pairs).keys.Nodup := by
  induction pairs generalizing t with
  | nil => exact h
  | cons e pairs ih => exact ih (keys_set_nodup h e.1 e.2)

private theorem eraseIn_eq (k : κ) (es : List (κ × ν)) :
    eraseIn k es = es.filter (·.1 ≠ k) := by
  fun_induction eraseIn k es <;> simp_all

theorem foldl_erase (t : Table κ ν) (ks : List κ) :
    ks.foldl erase t = t.restrict (!ks.contains ·) := by
  induction ks generalizing t with
  | nil => simp [restrict]
  | cons k ks ih =>
    rw [List.foldl_cons, ih, erase, eraseIn_eq, restrict, restrict, List.filter_filter]
    simp [Bool.and_comm]

theorem mem_erase {t : Table κ ν} {k : κ} {e : κ × ν} (h : e ∈ (t.erase k).entries) :
    e ∈ t.entries := by
  obtain ⟨es⟩ := t
  rw [erase] at h
  fun_induction eraseIn k es with
  | case1 => exact h
  | case2 v rest ih => exact List.mem_cons_of_mem _ (ih h)
  | case3 l v rest hne ih =>
    rcases List.mem_cons.mp h with rfl | hrest
    · exact List.mem_cons_self
    · exact List.mem_cons_of_mem _ (ih hrest)

private theorem mem_update {t : Table κ ν} {pairs : List (κ × ν)} {e : κ × ν}
    (h : e ∈ (t.update pairs).entries) : e ∈ t.entries ∨ e ∈ pairs := by
  induction pairs generalizing t with
  | nil => exact .inl h
  | cons first pairs ih =>
    rcases ih h with hset | hmem
    · rcases mem_set hset with rfl | hold
      · exact .inr List.mem_cons_self
      · exact .inl hold
    · exact .inr (List.mem_cons_of_mem _ hmem)

theorem mem_ofList {pairs : List (κ × ν)} {e : κ × ν} (h : e ∈ (ofList pairs).entries) :
    e ∈ pairs :=
  (mem_update h).resolve_left List.not_mem_nil

theorem keys_ofList_nodup (pairs : List (κ × ν)) : (ofList pairs).keys.Nodup :=
  keys_update_nodup (t := empty) List.nodup_nil pairs

private theorem update_entries {t : Table κ ν} {pairs : List (κ × ν)}
    (h : (t.keys ++ pairs.map Prod.fst).Nodup) : (t.update pairs).entries = t.entries ++ pairs := by
  induction pairs generalizing t with
  | nil => exact (List.append_nil t.entries).symm
  | cons e pairs ih =>
    have hnew : t.get? e.1 = none := by
      rw [get?_eq_none_iff]
      intro hmem
      exact (List.nodup_append.mp h).2.2 e.1 hmem e.1 List.mem_cons_self rfl
    have hset : (t.set e.1 e.2).entries = t.entries ++ [e] := set_of_none hnew e.2
    have hkeys : ((t.set e.1 e.2).keys ++ pairs.map Prod.fst).Nodup := by
      rw [keys, hset, List.map_append, List.append_assoc]
      exact h
    have hrest := ih hkeys
    rw [hset, List.append_assoc, List.singleton_append] at hrest
    exact hrest

theorem ofList_entries {pairs : List (κ × ν)} (h : (pairs.map Prod.fst).Nodup) :
    (ofList pairs).entries = pairs :=
  update_entries (t := empty) h

private theorem getIn_append (k : κ) (es added : List (κ × ν)) :
    getIn k (es ++ added) = (getIn k es).or (getIn k added) := by
  induction es with
  | nil => simp [getIn]
  | cons e es ih =>
    obtain ⟨l, w⟩ := e
    by_cases hl : l = k
    · simp [getIn, hl]
    · simpa [getIn, hl] using ih

theorem get?_extend (t : Table κ ν) (added : List (κ × ν)) (k : κ) :
    (t.extend added).get? k = (t.get? k).or ((⟨added⟩ : Table κ ν).get? k) :=
  getIn_append k t.entries added

private theorem setIn_setIn (k : κ) (w v : ν) (es : List (κ × ν)) :
    setIn k v (setIn k w es) = setIn k v es := by
  fun_induction setIn k w es <;> simp_all [setIn]

theorem set_set (t : Table κ ν) (k : κ) (w v : ν) : (t.set k w).set k v = t.set k v :=
  congrArg Table.mk (setIn_setIn k w v t.entries)

private theorem setIn_concat {k : κ} {es : List (κ × ν)} (h : k ∉ es.map Prod.fst) (w v : ν) :
    setIn k v (es ++ [(k, w)]) = es ++ [(k, v)] := by
  induction es with
  | nil => simp [setIn]
  | cons e es ih =>
    rw [List.map_cons, List.mem_cons, not_or] at h
    simp [setIn, ih h.2, Ne.symm h.1]

theorem set_extend_concat {t : Table κ ν} {front : List (κ × ν)} {k : κ} (ht : k ∉ t.keys)
    (hf : k ∉ front.map Prod.fst) (w v : ν) :
    (t.extend (front ++ [(k, w)])).set k v = t.extend (front ++ [(k, v)]) := by
  have hnew : k ∉ (t.entries ++ front).map Prod.fst := by
    rw [List.map_append, List.mem_append, not_or]
    exact ⟨ht, hf⟩
  rw [extend, extend, ← List.append_assoc, ← List.append_assoc, set, setIn_concat hnew]

theorem get?_extend_concat {t : Table κ ν} {front : List (κ × ν)} {k : κ} (ht : k ∉ t.keys)
    (hf : k ∉ front.map Prod.fst) (v : ν) : (t.extend (front ++ [(k, v)])).get? k = some v := by
  rw [← set_extend_concat ht hf v v, get?_set, if_pos rfl]

theorem get?_extend_of_mem {t : Table κ ν} {added : List (κ × ν)}
    (hn : (t.extend added).keys.Nodup) {k : κ} {v : ν} (h : (k, v) ∈ added) :
    (t.extend added).get? k = some v :=
  (get?_eq_some_iff hn).mpr (List.mem_append_right _ h)

private theorem map_setIn {μ : Type} (f : ν → μ) (k : κ) (v : ν) (es : List (κ × ν)) :
    (setIn k v es).map (Prod.map id f) = setIn k (f v) (es.map (Prod.map id f)) := by
  fun_induction setIn k v es <;> simp_all [setIn]

theorem map_ofList {μ : Type} (f : ν → μ) (pairs : List (κ × ν)) :
    (ofList pairs).entries.map (Prod.map id f) = (ofList (pairs.map (Prod.map id f))).entries := by
  have run : ∀ t : Table κ ν, (t.update pairs).entries.map (Prod.map id f) =
      ((⟨t.entries.map (Prod.map id f)⟩ : Table κ μ).update (pairs.map (Prod.map id f))).entries := by
    induction pairs with
    | nil => exact fun _ => rfl
    | cons e pairs ih =>
      intro t
      have hset := ih (t.set e.1 e.2)
      rw [set, map_setIn] at hset
      exact hset
  exact run empty

end BlockFsck.Table
