import BlockFsck.Log
import BlockFsck.Proofs.Table

/-!
# The tree of loggers

A logger lies below the loggers whose names it starts with, a dot following. Making a logger puts it
between those it lies below and those that lie below it, so that the loggers above one are found by
their names (`Loggers.mem_chain_of_isBelow`), with two exceptions that come from how a place is
looked for: names with two dots in a row, and names that the word `root` starts with.
-/

namespace BlockFsck.Loggers

variable {ls : Loggers} {name above other : String} {logger : Logger}

/-- The name starts with the other one and a dot. -/
def IsBelow (name above : String) : Prop := above.toList ++ ['.'] <+: name.toList

/-- No two dots in a row. -/
def IsPlain (name : String) : Prop := ¬ ['.', '.'] <:+: name.toList

theorem IsBelow.starts (h : IsBelow name above) : above.toList <+: name.toList :=
  (List.prefix_append _ _).trans h

private theorem IsBelow.length_lt (h : IsBelow name above) : above.length < name.length := by
  have hle := List.IsPrefix.length_le h
  rw [List.length_append, List.length_singleton, String.length_toList, String.length_toList] at hle
  omega

private theorem IsBelow.trans (h : IsBelow name above) (h' : IsBelow above other) :
    IsBelow name other :=
  List.IsPrefix.trans h' h.starts

private theorem IsBelow.ne (h : IsBelow name above) : name ≠ above := by
  rintro rfl
  exact absurd h.length_lt (lt_irrefl _)

private theorem IsBelow.of_length_lt (h : IsBelow name above) (h' : IsBelow name other)
    (hlt : other.length < above.length) : IsBelow above other := by
  refine List.prefix_of_prefix_length_le h' h.starts ?_
  rw [List.length_append, List.length_singleton, String.length_toList, String.length_toList]
  omega

theorem IsBelow.of_not_starts (h : IsBelow name above) (h' : IsBelow name other)
    (hstarts : ¬ above.toList <+: other.toList) : IsBelow above other := by
  refine h.of_length_lt h' ?_
  by_contra hle
  exact hstarts (List.prefix_of_prefix_length_le h.starts h'.starts
    (by simpa only [String.length_toList] using not_lt.mp hle))

theorem IsBelow.eq_of_length (h : IsBelow name above) (h' : IsBelow name other)
    (he : other.length = above.length) : other = above := by
  rw [← String.length_toList, ← String.length_toList] at he
  have hstarts := List.prefix_of_prefix_length_le h'.starts h.starts he.le
  exact String.toList_inj.mp (hstarts.eq_of_length he)

private theorem IsPlain.of_isBelow (hp : IsPlain name) (h : IsBelow name above) : IsPlain above :=
  fun hdots => hp (hdots.trans h.starts.isInfix)

/-- The name is the other one or lies below it. -/
def IsWithin (name above : String) : Prop := name = above ∨ IsBelow name above

theorem IsWithin.trans (h : IsWithin name above) (h' : IsWithin above other) :
    IsWithin name other := by
  rcases h with rfl | hbelow
  · exact h'
  · rcases h' with rfl | habove
    · exact .inr hbelow
    · exact .inr (hbelow.trans habove)

theorem IsBelow.isWithin (h : IsBelow name above) (h' : IsBelow name other)
    (hle : other.length ≤ above.length) : IsWithin above other := by
  rcases hle.lt_or_eq with hlt | heq
  · exact .inr (h.of_length_lt h' hlt)
  · exact .inl (h.eq_of_length h' heq).symm

section Dots

variable {cs stretch : List Char}

private theorem of_mem_beforeDots (h : stretch ∈ beforeDots cs) :
    stretch ≠ [] ∧ ∃ front, cs = front ++ '.' :: stretch := by
  fun_induction beforeDots cs with
  | case1 => simp at h
  | case2 => simp at h
  | case3 c rest ih =>
    rcases List.mem_cons.mp h with rfl | h
    · exact ⟨by simp, [], rfl⟩
    · obtain ⟨hne, front, rfl⟩ := ih h
      exact ⟨hne, '.' :: c :: front, rfl⟩
  | case4 c rest _ _ ih =>
    obtain ⟨hne, front, rfl⟩ := ih h
    exact ⟨hne, c :: front, rfl⟩

private theorem mem_beforeDots (hplain : ¬ ['.', '.'] <:+: cs) {front : List Char}
    (hcs : cs = front ++ '.' :: stretch) (hne : stretch ≠ []) : stretch ∈ beforeDots cs := by
  fun_induction beforeDots cs generalizing front with
  | case1 => simp at hcs
  | case2 =>
    have hlength := congrArg List.length hcs
    have hpos := List.length_pos_iff.mpr hne
    simp at hlength
    omega
  | case3 c rest ih =>
    have hc : c ≠ '.' := fun hc => hplain ⟨[], rest, by simp [hc]⟩
    have hrest : ¬ ['.', '.'] <:+: rest := fun hdots => hplain (hdots.trans ⟨['.', c], [], by simp⟩)
    cases front with
    | nil => exact (List.cons.inj hcs).2 ▸ List.mem_cons_self
    | cons _ front =>
      cases front with
      | nil => exact absurd (List.cons.inj (List.cons.inj hcs).2).1 hc
      | cons _ front =>
        have hrestcs := (List.cons.inj (List.cons.inj hcs).2).2
        exact List.mem_cons_of_mem _ (ih hrest hrestcs)
  | case4 c rest hlast hdot ih =>
    have hrest : ¬ ['.', '.'] <:+: rest := fun hdots => hplain (hdots.trans ⟨[c], [], by simp⟩)
    cases front with
    | nil =>
      obtain ⟨rfl, rfl⟩ := List.cons.inj hcs
      cases hstretch : rest with
      | nil => exact absurd hstretch hne
      | cons d rest => exact absurd hstretch (hdot d rest rfl)
    | cons _ front => exact ih hrest (List.cons.inj hcs).2

private theorem length_lt_of_beforeDots : (beforeDots cs).Pairwise fun longer shorter =>
    shorter.length < longer.length := by
  fun_induction beforeDots cs with
  | case1 => exact .nil
  | case2 => exact .nil
  | case3 c rest ih =>
    refine .cons (fun shorter hmem => ?_) ih
    obtain ⟨-, front, rfl⟩ := of_mem_beforeDots hmem
    simp
    omega
  | case4 c rest _ _ ih => exact ih

end Dots

private theorem mem_enclosing :
    above ∈ enclosing name ↔ above.toList.reverse ∈ beforeDots name.toList.reverse := by
  rw [enclosing, List.mem_map]
  constructor
  · rintro ⟨cs, hmem, rfl⟩
    simpa using hmem
  · exact fun hmem => ⟨_, hmem, by simp⟩

theorem isBelow_of_mem_enclosing (h : above ∈ enclosing name) :
    IsBelow name above ∧ above ≠ "" := by
  obtain ⟨hne, front, hfront⟩ := of_mem_beforeDots (mem_enclosing.mp h)
  refine ⟨⟨front.reverse, ?_⟩, by simpa using hne⟩
  rw [← List.reverse_inj, hfront]
  simp

theorem mem_enclosing_of_isBelow (hp : IsPlain name) (hne : above ≠ "") (h : IsBelow name above) :
    above ∈ enclosing name := by
  obtain ⟨rest, hrest⟩ := h
  have hplain : ¬ ['.', '.'] <:+: name.toList.reverse := by
    intro hdots
    exact hp (by simpa using List.reverse_infix.mpr hdots)
  have hsplit : name.toList.reverse = rest.reverse ++ '.' :: above.toList.reverse := by
    rw [← hrest]
    simp
  exact mem_enclosing.mpr (mem_beforeDots hplain hsplit (by simpa using hne))

/-- The first of the enclosing names that passes a test is the longest one. -/
theorem length_le_of_find?_enclosing {test : String → Bool}
    (h : (enclosing name).find? test = some above) (hmem : other ∈ enclosing name)
    (htest : test other = true) : other.length ≤ above.length := by
  have hsorted : (enclosing name).Pairwise fun longer shorter =>
      shorter.length < longer.length := by
    refine List.pairwise_map.mpr (length_lt_of_beforeDots.imp fun hlt => ?_)
    simpa using hlt
  obtain ⟨-, before, after, hlist, hbefore⟩ := List.find?_eq_some_iff_append.mp h
  rw [hlist] at hmem hsorted
  rcases List.mem_append.mp hmem with hmem | hmem
  · exact absurd htest (by simpa using hbefore other hmem)
  · rcases List.mem_cons.mp hmem with rfl | hmem
    · exact le_refl _
    · have hafter := (List.pairwise_append.mp hsorted).2.1
      exact (List.rel_of_pairwise_cons hafter hmem).le

/-- The place of a logger aside, its settings. -/
def settingsOf (logger : Logger) : Logger := { logger with parent := "" }

/-- The name that a parent goes by. -/
def parentName (logger : Logger) : String := if logger.parent = "" then "root" else logger.parent

/-- The parent of a logger when the one of that name has been made. -/
def parentAfter (name child : String) (logger : Logger) : String :=
  if name ∈ enclosing child ∧ ¬ name.toList <+: (parentName logger).toList then name
  else logger.parent

private theorem adopted_eq (name child : String) (logger : Logger) :
    adopted name (child, logger) =
      (child, { logger with parent := parentAfter name child logger }) := by
  rw [adopted, parentAfter, parentName]
  simp only [Bool.and_eq_true, List.contains_iff_mem, Bool.not_eq_true', Bool.eq_false_iff, ne_eq,
    String.startsWith_string_iff]
  split_ifs <;> rfl

private theorem getIn_map_adopted (es : List (String × Logger)) :
    Table.getIn other (es.map (adopted name)) = (Table.getIn other es).map fun logger =>
      { logger with parent := parentAfter name other logger } := by
  induction es with
  | nil => rfl
  | cons e es ih =>
    obtain ⟨key, logger⟩ := e
    rw [List.map_cons, adopted_eq, Table.getIn, Table.getIn]
    by_cases he : key = other
    · simp [he]
    · rw [if_neg he, if_neg he, ih]

theorem make_of_known (h : canonical name = "" ∨ ls.settings.contains (canonical name) = true) :
    ls.make name = ls := by
  rw [make]
  exact if_pos (by simpa using h)

/-- What is at a name after a logger has been made that was not there. -/
theorem get?_make_of_new (hne : canonical name ≠ "")
    (hnew : ls.settings.contains (canonical name) = false) :
    (ls.make name).settings.get? other =
      if other = canonical name then
        some { parent := ((enclosing (canonical name)).find? ls.settings.contains).getD "" }
      else (ls.settings.get? other).map fun logger =>
        { logger with parent := parentAfter (canonical name) other logger } := by
  have hmake : ls.make name = ⟨Table.extend ⟨ls.settings.entries.map (adopted (canonical name))⟩
      [(canonical name, { parent :=
        ((enclosing (canonical name)).find? ls.settings.contains).getD "" })]⟩ := by
    rw [make]
    exact if_neg (by simp [hne, hnew])
  rw [hmake, Table.get?_extend, Table.get?, getIn_map_adopted]
  change (Option.map _ (ls.settings.get? other)).or (Table.getIn other [_]) = _
  split_ifs with he
  · subst he
    have hnone : ls.settings.get? (canonical name) = none := by
      simpa [Table.contains] using hnew
    rw [hnone, Table.getIn, if_pos rfl]
    rfl
  · rw [Table.getIn, if_neg (Ne.symm he), Table.getIn, Option.or_none]

theorem settingsOf_get_make (ls : Loggers) (name other : String) :
    settingsOf ((ls.make name).get other) = settingsOf (ls.get other) := by
  by_cases hknown : canonical name = "" ∨ ls.settings.contains (canonical name) = true
  · rw [make_of_known hknown]
  · obtain ⟨hne, hnew⟩ := not_or.mp hknown
    rw [Bool.not_eq_true] at hnew
    rw [get, get, get?_make_of_new hne hnew]
    split_ifs with he hroot
    · exact absurd (he.symm.trans hroot) hne
    · have hnone : ls.settings.get? other = none := by simpa [Table.contains, he] using hnew
      rw [hnone]
      rfl
    all_goals cases ls.settings.get? other <;> rfl

/-- A logger that is not there has no place to lose. -/
theorem parent_get_make_of_new (hne : canonical name ≠ "")
    (hnew : ls.settings.contains (canonical name) = false) (hother : other ≠ canonical name) :
    ((ls.make name).get other).parent =
      if ls.settings.contains other = true then
        parentAfter (canonical name) other (ls.get other)
      else "" := by
  rw [get, get?_make_of_new hne hnew, if_neg hother, Table.contains, get]
  cases ls.settings.get? other with
  | none =>
    rw [Option.isSome_none, if_neg Bool.false_ne_true]
    split_ifs <;> rfl
  | some logger => rfl

theorem contains_make (hne : canonical name ≠ "") :
    (ls.make name).settings.contains (canonical name) = true := by
  by_cases hknown : canonical name = "" ∨ ls.settings.contains (canonical name) = true
  · rw [make_of_known hknown]
    exact hknown.resolve_left hne
  · obtain ⟨hne, hnew⟩ := not_or.mp hknown
    rw [Bool.not_eq_true] at hnew
    rw [Table.contains, get?_make_of_new hne hnew, if_pos rfl]
    rfl

/-- What setting up makes of a logger. -/
def given (logger : Logger) (level : Int) (stream : Option String) : Logger :=
  match stream, logger.output with
  | none, some output => { logger with level, output := some { output with level } }
  | none, none =>
    { logger with level, output := some ⟨standardOutput, level⟩, passesOn := false }
  | some stream, _ => { logger with level, output := some ⟨stream, level⟩, passesOn := false }

theorem given_parent (logger : Logger) (level : Int) (stream : Option String) :
    (given logger level stream).parent = logger.parent := by
  cases stream <;> cases houtput : logger.output <;> simp [given, houtput]

theorem get?_setUp (ls : Loggers) (name other : String) (level : Int) (stream : Option String) :
    (ls.setUp name level stream).settings.get? other =
      if canonical name = other then
        some (given ((ls.make name).get (canonical name)) level stream)
      else (ls.make name).settings.get? other := by
  have hset : ls.setUp name level stream = ⟨(ls.make name).settings.set (canonical name)
      (given ((ls.make name).get (canonical name)) level stream)⟩ := by
    cases stream <;> cases houtput : ((ls.make name).get (canonical name)).output <;>
      simp [setUp, given, houtput]
  rw [hset, Table.get?_set]

theorem contains_setUp (ls : Loggers) (hne : canonical name ≠ "") (level : Int)
    (stream : Option String) : (ls.setUp name level stream).settings.contains other =
      (ls.make name).settings.contains other := by
  rw [Table.contains, get?_setUp]
  split_ifs with he
  · exact (he ▸ contains_make hne).symm
  · rfl

/-! ## Places -/

/-- Each logger is linked to one above it that is there, or to the root. Every other one above it
lies above that. -/
structure WellLinked (ls : Loggers) : Prop where
  root : ls.settings.contains "" = false
  parent : ∀ name logger, ls.settings.get? name = some logger →
    logger.parent = "" ∨ ls.settings.contains logger.parent = true ∧ IsBelow name logger.parent
  linked : ∀ name logger above, ls.settings.get? name = some logger →
    ls.settings.contains above = true → above ∈ enclosing name →
    ¬ above.toList <+: "root".toList → IsWithin logger.parent above

theorem wellLinked_empty : WellLinked {} where
  root := rfl
  parent _ _ h := by cases h
  linked _ _ _ h := by cases h

theorem ne_root_of_isBelow (h : IsBelow name above) : name ≠ "" := by
  rintro rfl
  exact absurd h.length_lt (by simp)

theorem parentAfter_eq_or (name child : String) (logger : Logger) :
    parentAfter name child logger = name ∧ name ∈ enclosing child ∨
      parentAfter name child logger = logger.parent := by
  rw [parentAfter]
  split_ifs with hadopt
  · exact .inl ⟨rfl, hadopt.1⟩
  · exact .inr rfl

/-- A parent that does not start with the name of an enclosing logger is above that one. -/
theorem isBelow_parent_of_not_starts {child : String}
    (hparent : logger.parent = "" ∨ IsBelow child logger.parent) (hmem : name ∈ enclosing child)
    (hstarts : ¬ name.toList <+: (parentName logger).toList) :
    logger.parent = "" ∨ IsBelow name logger.parent := by
  obtain ⟨hname, -⟩ := isBelow_of_mem_enclosing hmem
  by_cases hroot : logger.parent = ""
  · exact .inl hroot
  · have hchild := hparent.resolve_left hroot
    rw [parentName, if_neg hroot] at hstarts
    exact .inr (hname.of_not_starts hchild hstarts)

private theorem WellLinked.linked_parentAfter {child : String} (h : WellLinked ls)
    (hchild : ls.settings.get? child = some logger) (hnew : ls.settings.contains name = false)
    (habove : above = name ∨ ls.settings.contains above = true) (hmem : above ∈ enclosing child)
    (hstart : ¬ above.toList <+: "root".toList) :
    IsWithin (parentAfter name child logger) above := by
  obtain ⟨hbelow, hne⟩ := isBelow_of_mem_enclosing hmem
  have hparent := h.parent child logger hchild
  rw [parentAfter]
  split_ifs with hadopt
  · -- the new one lies below the old parent
    obtain ⟨henclosing, hstarts⟩ := hadopt
    by_cases hsame : name = above
    · exact .inl hsame
    · have hold := h.linked child logger above hchild (habove.resolve_left (Ne.symm hsame)) hmem
        hstart
      have hparentne : logger.parent ≠ "" := by
        rcases hold with he | hparentBelow
        · exact he ▸ hne
        · exact ne_root_of_isBelow hparentBelow
      have hbetween := (isBelow_parent_of_not_starts (hparent.imp_right And.right) henclosing
        hstarts).resolve_left hparentne
      rcases hold with he | hparentBelow
      · exact .inr (he ▸ hbetween)
      · exact .inr (hbetween.trans hparentBelow)
  · rcases habove with rfl | hold
    · -- the parent that is kept lies below the new logger
      have hstarts := not_not.mp (not_and.mp hadopt hmem)
      rw [parentName] at hstarts
      split_ifs at hstarts with hroot
      · exact absurd hstarts hstart
      · obtain ⟨hthere, hchildBelow⟩ := hparent.resolve_left hroot
        have hle := hstarts.length_le
        rw [String.length_toList, String.length_toList] at hle
        rcases hle.lt_or_eq with hlt | heq
        · exact .inr (hchildBelow.of_length_lt hbelow hlt)
        · have hsame := hchildBelow.eq_of_length hbelow heq
          rw [← hsame, hnew] at hthere
          cases hthere
    · exact h.linked child logger above hchild hold hmem hstart

theorem contains_make_of_new (hne : canonical name ≠ "")
    (hnew : ls.settings.contains (canonical name) = false) :
    (ls.make name).settings.contains other = true ↔
      other = canonical name ∨ ls.settings.contains other = true := by
  rw [Table.contains, get?_make_of_new hne hnew, Table.contains]
  split_ifs with he <;> simp [he]

theorem contains_make_iff : (ls.make name).settings.contains other = true ↔
    other = canonical name ∧ canonical name ≠ "" ∨ ls.settings.contains other = true := by
  by_cases hknown : canonical name = "" ∨ ls.settings.contains (canonical name) = true
  · rw [make_of_known hknown]
    refine ⟨.inr, fun h => h.elim (fun hsame => ?_) id⟩
    exact hsame.1 ▸ hknown.resolve_left hsame.2
  · obtain ⟨hne, hnew⟩ := not_or.mp hknown
    rw [contains_make_of_new hne (by simpa using hnew)]
    simp [hne]

theorem WellLinked.make (h : WellLinked ls) (name : String) : WellLinked (ls.make name) := by
  by_cases hknown : canonical name = "" ∨ ls.settings.contains (canonical name) = true
  · rwa [make_of_known hknown]
  obtain ⟨hne, hnew⟩ := not_or.mp hknown
  rw [Bool.not_eq_true] at hnew
  have hcontains : ∀ other, (ls.make name).settings.contains other = true ↔
      other = canonical name ∨ ls.settings.contains other = true :=
    fun _ => contains_make_of_new hne hnew
  constructor
  · rw [Bool.eq_false_iff, ne_eq, hcontains, h.root]
    simpa using Ne.symm hne
  · intro child logger hchild
    rw [get?_make_of_new hne hnew] at hchild
    rw [hcontains]
    split_ifs at hchild with he
    · obtain rfl := Option.some.inj hchild
      cases hfind : (enclosing (canonical name)).find? ls.settings.contains with
      | none => exact .inl rfl
      | some above =>
        have hbelow := (isBelow_of_mem_enclosing (List.mem_of_find?_eq_some hfind)).1
        exact .inr ⟨.inr (List.find?_some hfind), he ▸ hbelow⟩
    · obtain ⟨before, hbefore, rfl⟩ := Option.map_eq_some_iff.mp hchild
      dsimp only
      rcases parentAfter_eq_or (canonical name) child before with ⟨hparent, henclosing⟩ | hparent
      · rw [hparent]
        exact .inr ⟨.inl rfl, (isBelow_of_mem_enclosing henclosing).1⟩
      · rw [hparent]
        exact (h.parent child before hbefore).imp_right fun hold => ⟨.inr hold.1, hold.2⟩
  · intro child logger above hchild habove hmem hstart
    obtain ⟨hbelow, -⟩ := isBelow_of_mem_enclosing hmem
    rw [get?_make_of_new hne hnew] at hchild
    rw [hcontains] at habove
    split_ifs at hchild with he
    · obtain rfl := Option.some.inj hchild
      subst he
      have hold := habove.resolve_left hbelow.ne.symm
      cases hfind : (enclosing (canonical name)).find? ls.settings.contains with
      | none => exact absurd hold (by simpa using List.find?_eq_none.mp hfind above hmem)
      | some first =>
        have hfirst := (isBelow_of_mem_enclosing (List.mem_of_find?_eq_some hfind)).1
        exact hfirst.isWithin hbelow (length_le_of_find?_enclosing hfind hmem hold)
    · obtain ⟨before, hbefore, rfl⟩ := Option.map_eq_some_iff.mp hchild
      exact h.linked_parentAfter hbefore hnew habove hmem hstart

theorem WellLinked.setUp (h : WellLinked ls) (hne : canonical name ≠ "") (level : Int)
    (stream : Option String) : WellLinked (ls.setUp name level stream) := by
  have hmade := h.make name
  have hcontains : ∀ other, (ls.setUp name level stream).settings.contains other =
      (ls.make name).settings.contains other := fun _ => contains_setUp ls hne level stream
  have hthere : (ls.make name).settings.contains (canonical name) = true := contains_make hne
  have hparent : ∀ other logger, (ls.setUp name level stream).settings.get? other = some logger →
      ∃ before, (ls.make name).settings.get? other = some before ∧
        logger.parent = before.parent := by
    intro other logger hlogger
    rw [get?_setUp] at hlogger
    split_ifs at hlogger with he
    · obtain ⟨before, hbefore⟩ := Option.isSome_iff_exists.mp hthere
      refine ⟨before, he ▸ hbefore, ?_⟩
      rw [← Option.some.inj hlogger, given_parent, get, hbefore]
      rfl
    · exact ⟨logger, hlogger, rfl⟩
  constructor
  · rw [hcontains, hmade.root]
  · intro child logger hchild
    obtain ⟨before, hbefore, hsame⟩ := hparent child logger hchild
    rw [hcontains, hsame]
    exact hmade.parent child before hbefore
  · intro child logger above hchild habove hmem hstart
    obtain ⟨before, hbefore, hsame⟩ := hparent child logger hchild
    rw [hcontains] at habove
    rw [hsame]
    exact hmade.linked child before above hbefore habove hmem hstart

theorem WellLinked.parent_of_get (h : WellLinked ls) (name : String) :
    (ls.get name).parent = "" ∨ ls.settings.contains (ls.get name).parent = true ∧
      IsBelow name (ls.get name).parent := by
  rw [get]
  cases hname : ls.settings.get? name with
  | none => split_ifs <;> exact .inl rfl
  | some logger => exact h.parent name logger hname

private theorem WellLinked.length_parent_lt (h : WellLinked ls) (hne : name ≠ "") :
    (ls.get name).parent.length < name.length := by
  rcases h.parent_of_get name with hroot | ⟨-, hbelow⟩
  · have hpos : name.length ≠ 0 := by simpa using hne
    rw [hroot]
    exact Nat.pos_of_ne_zero hpos
  · exact hbelow.length_lt

private theorem WellLinked.chainFrom_eq (h : WellLinked ls) {size : Nat}
    (hsize : name.length ≤ size) :
    ls.chainFrom size name = ls.chain name := by
  induction hlength : name.length using Nat.strong_induction_on generalizing name size with
  | _ length ih =>
    subst hlength
    by_cases hroot : name = ""
    · subst hroot
      cases size <;> rfl
    · have hlt := h.length_parent_lt hroot
      obtain ⟨less, hless⟩ := Nat.exists_eq_add_one_of_ne_zero (by omega : name.length ≠ 0)
      obtain ⟨more, rfl⟩ := Nat.exists_eq_add_one_of_ne_zero (by omega : size ≠ 0)
      rw [chain, hless, chainFrom, chainFrom, if_neg hroot, if_neg hroot,
        ih _ hlt (by omega) rfl, ih _ hlt (by omega) rfl]

theorem chain_root (ls : Loggers) : ls.chain "" = [""] := rfl

theorem WellLinked.chain_eq (h : WellLinked ls) (hne : name ≠ "") :
    ls.chain name = name :: ls.chain (ls.get name).parent := by
  have hlt := h.length_parent_lt hne
  obtain ⟨less, hless⟩ := Nat.exists_eq_add_one_of_ne_zero (by omega : name.length ≠ 0)
  rw [chain, hless, chainFrom, if_neg hne, h.chainFrom_eq (by omega)]

theorem mem_chain_self (ls : Loggers) (name : String) : name ∈ ls.chain name := by
  rw [chain]
  cases name.length with
  | zero => exact List.mem_singleton_self name
  | succ size =>
    rw [chainFrom]
    split_ifs with hroot
    · exact hroot ▸ List.mem_singleton_self _
    · exact List.mem_cons_self

/-- The steps of a chain: a name at the root, and any other with the chain of its parent. -/
theorem WellLinked.chain_induction (h : WellLinked ls) {motive : String → Prop} (root : motive "")
    (step : ∀ name, name ≠ "" → motive (ls.get name).parent → motive name) (name : String) :
    motive name := by
  induction hlength : name.length using Nat.strong_induction_on generalizing name with
  | _ length ih =>
    subst hlength
    by_cases hroot : name = ""
    · exact hroot ▸ root
    · exact step name hroot (ih _ (h.length_parent_lt hroot) _ rfl)

theorem WellLinked.root_mem_chain (h : WellLinked ls) (name : String) : "" ∈ ls.chain name := by
  induction name using h.chain_induction with
  | root => exact List.mem_singleton_self _
  | step name hne ih =>
    rw [h.chain_eq hne]
    exact List.mem_cons_of_mem _ ih

/-- What is above a logger encloses it, or is the root. -/
theorem WellLinked.isBelow_of_mem_chain (h : WellLinked ls) (hmem : above ∈ ls.chain name) :
    above = name ∨ above = "" ∨ IsBelow name above := by
  induction name using h.chain_induction with
  | root => exact .inl (List.mem_singleton.mp hmem)
  | step name hne ih =>
    rw [h.chain_eq hne] at hmem
    rcases List.mem_cons.mp hmem with rfl | hmem
    · exact .inl rfl
    · have hparent := h.parent_of_get name
      rcases ih hmem with rfl | hroot | hbelow
      · exact .inr (hparent.imp_right And.right)
      · exact .inr (.inl hroot)
      · rcases hparent with hroot | ⟨-, hparentBelow⟩
        · exact absurd hroot (ne_root_of_isBelow hbelow)
        · exact .inr (.inr (hparentBelow.trans hbelow))

/-- Of the loggers above one, each encloses those before it. -/
theorem WellLinked.chain_pairwise (h : WellLinked ls) (name : String) :
    (ls.chain name).Pairwise fun lower upper => upper = "" ∨ IsBelow lower upper := by
  induction name using h.chain_induction with
  | root => exact List.pairwise_singleton _ _
  | step name hne ih =>
    rw [h.chain_eq hne]
    refine .cons (fun upper hmem => ?_) ih
    rcases h.isBelow_of_mem_chain hmem with rfl | hroot | hbelow
    · exact (h.parent_of_get name).imp_right And.right
    · exact .inl hroot
    · rcases h.parent_of_get name with hroot | ⟨-, hparentBelow⟩
      · exact absurd hroot (ne_root_of_isBelow hbelow)
      · exact .inr (hparentBelow.trans hbelow)

/-- A logger that encloses another is found above it. -/
theorem WellLinked.mem_chain_of_isBelow (h : WellLinked ls)
    (hname : ls.settings.contains name = true) (habove : ls.settings.contains above = true)
    (hplain : IsPlain name) (hbelow : IsBelow name above)
    (hstart : ¬ above.toList <+: "root".toList) : above ∈ ls.chain name := by
  induction name using h.chain_induction with
  | root => exact absurd rfl (ne_root_of_isBelow hbelow)
  | step name hne ih =>
    obtain ⟨logger, hlogger⟩ := Option.isSome_iff_exists.mp hname
    have hget : ls.get name = logger := by rw [get, hlogger, Option.getD_some]
    have hmem := mem_enclosing_of_isBelow hplain (fun he => hstart (by simp [he])) hbelow
    have hlinked := h.linked name logger above hlogger habove hmem hstart
    rw [h.chain_eq hne]
    rw [hget] at ih ⊢
    refine List.mem_cons_of_mem _ ?_
    rcases hlinked with hparent | hparentBelow
    · exact hparent ▸ mem_chain_self _ _
    · obtain ⟨hthere, hnameBelow⟩ :=
        (h.parent name logger hlogger).resolve_left (ne_root_of_isBelow hparentBelow)
      exact ih hthere (hplain.of_isBelow hnameBelow) hparentBelow

end BlockFsck.Loggers
