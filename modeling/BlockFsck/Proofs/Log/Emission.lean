import BlockFsck.Proofs.Log.Hierarchy
import Mathlib.Data.List.Induction

/-!
# Where log records go

After any history of setting up components, a record is written once at most, to the stream of the
nearest component that has been set up, and what is done to a component makes no difference to the
records of loggers that do not lie below it.
-/

namespace BlockFsck.Loggers

/-- What is done to the loggers: one is asked for, or a component is set up. -/
inductive Step
  | ask (name : String)
  | setUp (component : String) (environment requested stream : Option String)

/-- The component that a step sets up is not the root. -/
def Step.IsComponent : Step → Prop
  | .ask _ => True
  | .setUp component _ _ _ => canonical component ≠ ""

def Step.apply (ls : Loggers) : Step → Loggers
  | .ask name => ls.make name
  | .setUp component environment requested stream =>
    (ls.configure component environment requested stream).2

/-- The loggers after a history that starts with none. -/
def after (steps : List Step) : Loggers := steps.foldl Step.apply {}

/-- The level and the stream that a step gives to a component, if it sets that up. A call that names
no level sets nothing up. -/
def Step.given? (component : String) : Step → Option (Int × Option String)
  | .ask _ => none
  | .setUp name environment requested stream =>
    match Log.resolve environment requested with
    | .ok level => if canonical name = component then some (level, stream) else none
    | .error _ => none

/-- The levels and the streams that a component has been given, in order. -/
def settingsGiven (steps : List Step) (component : String) : List (Int × Option String) :=
  steps.filterMap (Step.given? component)

def isSetUp (steps : List Step) (component : String) : Bool :=
  !(settingsGiven steps component).isEmpty

/-- The last stream that was named, and the default one if none was. -/
def lastStream (given : List (Int × Option String)) : String :=
  (given.filterMap Prod.snd).getLast?.getD standardOutput

/-- The stream of a component. -/
def streamOf (steps : List Step) (component : String) : String :=
  lastStream (settingsGiven steps component)

/-- The level that a component was given last. -/
def levelOf (steps : List Step) (component : String) : Int :=
  ((settingsGiven steps component).getLast?.map Prod.fst).getD 0

/-- The logger is as the calls have left it, its place aside. -/
structure Settled (logger : Logger) (given : List (Int × Option String)) : Prop where
  level : logger.level = (given.getLast?.map Prod.fst).getD 0
  output : logger.output = given.getLast?.map fun last => ⟨lastStream given, last.1⟩
  passesOn : logger.passesOn = given.isEmpty

variable {ls others : Loggers} {steps : List Step} {name component : String} {logger : Logger}
  {calls : List (Int × Option String)}

private theorem settled_fresh : Settled {} [] := ⟨rfl, rfl, rfl⟩

private theorem Settled.of_settingsOf {other : Logger} (h : Settled logger calls)
    (he : settingsOf other = settingsOf logger) : Settled other calls := by
  obtain ⟨hlevel, houtput, hpassesOn⟩ := h
  simp only [settingsOf, Logger.mk.injEq] at he
  exact ⟨he.1.trans hlevel, he.2.1.trans houtput, he.2.2.1.trans hpassesOn⟩

private theorem Settled.set (h : Settled logger calls) (level : Int) (stream : Option String) :
    Settled (given logger level stream) (calls ++ [(level, stream)]) := by
  have hlast : lastStream (calls ++ [(level, stream)]) = stream.getD (lastStream calls) := by
    cases stream <;> simp [lastStream]
  cases stream with
  | some stream =>
    constructor
    · simp [given]
    · simp [given, hlast]
    · simp [given]
  | none =>
    cases houtput : logger.output with
    | none =>
      have hnil : calls = [] := by simpa [houtput] using h.output
      subst hnil
      constructor <;> simp [given, houtput, lastStream]
    | some output =>
      obtain ⟨last, hsome, hout⟩ : ∃ last, calls.getLast? = some last ∧
          (⟨lastStream calls, last.1⟩ : LogOutput) = output := by
        simpa [houtput, eq_comm] using h.output
      have hcalls : calls.isEmpty = false := by
        rw [List.isEmpty_eq_false_iff]
        rintro rfl
        cases hsome
      constructor
      · simp [given, houtput]
      · simp [given, houtput, hlast, ← hout]
      · simp [given, houtput, h.passesOn, hcalls]

private theorem after_concat (steps : List Step) (step : Step) :
    after (steps ++ [step]) = step.apply (after steps) := by
  rw [after, List.foldl_append]
  rfl

theorem wellLinked_apply (h : WellLinked ls) {step : Step} (hstep : step.IsComponent) :
    WellLinked (step.apply ls) := by
  cases step with
  | ask name => exact h.make name
  | setUp name environment requested stream =>
    rw [Step.apply, configure]
    cases Log.resolve environment requested with
    | error misnomer => exact h.make name
    | ok level => exact h.setUp hstep level stream

theorem wellLinked_after (h : ∀ step ∈ steps, step.IsComponent) : WellLinked (after steps) := by
  induction steps using List.reverseRecOn with
  | nil => exact wellLinked_empty
  | append_singleton steps step ih =>
    rw [after_concat]
    exact wellLinked_apply (ih fun earlier hmem => h earlier (List.mem_append_left _ hmem))
      (h step (by simp))

theorem get_of_not_contains (h : ls.settings.contains name = false) :
    ls.get name = if name = "" then { level := Log.warning } else {} := by
  have hnone : ls.settings.get? name = none := by simpa [Table.contains] using h
  rw [get, hnone]
  rfl

theorem get_setUp (ls : Loggers) (name component : String) (level : Int) (stream : Option String) :
    (ls.setUp name level stream).get component =
      if canonical name = component then given ((ls.make name).get component) level stream
      else (ls.make name).get component := by
  rw [get, get?_setUp]
  by_cases he : canonical name = component
  · rw [if_pos he, if_pos he, he, Option.getD_some]
  · rw [if_neg he, if_neg he, get]

private theorem settled_apply (h : Settled (ls.get component) calls) (step : Step) :
    Settled ((step.apply ls).get component) (calls ++ (step.given? component).toList) := by
  cases step with
  | ask name =>
    rw [Step.apply, Step.given?, Option.toList_none, List.append_nil]
    exact h.of_settingsOf (settingsOf_get_make ls name component)
  | setUp name environment requested stream =>
    rw [Step.apply, configure, Step.given?]
    have hmade := h.of_settingsOf (settingsOf_get_make ls name component)
    cases Log.resolve environment requested with
    | error misnomer => simpa using hmade
    | ok level =>
      dsimp only
      rw [get_setUp]
      split_ifs with he
      · exact hmade.set level stream
      · simpa using hmade

private theorem settled_after (hne : component ≠ "") (steps : List Step) :
    Settled ((after steps).get component) (settingsGiven steps component) := by
  induction steps using List.reverseRecOn with
  | nil =>
    have hfresh : (after []).get component = {} := if_neg hne
    exact hfresh ▸ settled_fresh
  | append_singleton steps step ih =>
    rw [after_concat, settingsGiven, List.filterMap_append]
    exact settled_apply ih step

private theorem isSetUp_root (h : ∀ step ∈ steps, step.IsComponent) : isSetUp steps "" = false := by
  have hnone : ∀ step ∈ steps, step.given? "" = none := by
    intro step hmem
    have hstep := h step hmem
    cases step with
    | ask name => rfl
    | setUp name environment requested stream =>
      rw [Step.given?]
      cases Log.resolve environment requested with
      | error misnomer => rfl
      | ok level => exact if_neg hstep
  have hnil : settingsGiven steps "" = [] := List.filterMap_eq_nil_iff.mpr hnone
  rw [isSetUp, hnil]
  rfl

/-- The loggers are linked by their names, and the components are as a history has left them. -/
structure Follows (ls : Loggers) (steps : List Step) : Prop where
  linked : WellLinked ls
  settled : ∀ component, component ≠ "" →
    Settled (ls.get component) (settingsGiven steps component)
  root : isSetUp steps "" = false

private theorem follows_after (h : ∀ step ∈ steps, step.IsComponent) : Follows
    (after steps) steps where
  linked := wellLinked_after h
  settled _ hne := settled_after hne steps
  root := isSetUp_root h

private theorem Follows.make (h : Follows ls steps) (name : String) : Follows
    (ls.make name) steps where
  linked := h.linked.make name
  settled component hne := (h.settled component hne).of_settingsOf (settingsOf_get_make _ _ _)
  root := h.root

private theorem Follows.get_root (h : Follows ls steps) : ls.get "" = { level := Log.warning } :=
  get_of_not_contains h.linked.root

private theorem resolve_nonneg {environment requested : Option String} {level : Int}
    (h : Log.resolve environment requested = .ok level) : 0 ≤ level := by
  have hlevels : ∀ entry ∈ Log.levels, 0 ≤ entry.2 := by decide
  rw [Log.resolve, Log.levelOfText] at h
  split at h
  · cases h
  · rename_i hfound
    exact Except.ok.inj h ▸ hlevels _ (List.mem_of_find?_eq_some hfound)
  · exact Except.ok.inj h ▸ by decide

private theorem given?_nonneg {step : Step} {given : Int × Option String}
    (h : step.given? component = some given) : 0 ≤ given.1 := by
  cases step with
  | ask name => cases h
  | setUp name environment requested stream =>
    rw [Step.given?] at h
    cases hlevel : Log.resolve environment requested with
    | error misnomer => simp [hlevel] at h
    | ok level =>
      rw [hlevel] at h
      dsimp only at h
      split_ifs at h
      obtain rfl := Option.some.inj h
      exact resolve_nonneg hlevel

private theorem Follows.level_nonneg (h : Follows ls steps) (component : String) :
    0 ≤ (ls.get component).level := by
  by_cases hroot : component = ""
  · rw [hroot, h.get_root]
    decide
  · rw [(h.settled component hroot).level]
    cases hlast : (settingsGiven steps component).getLast? with
    | none => exact le_refl _
    | some last =>
      obtain ⟨step, -, hgiven⟩ := List.mem_filterMap.mp (List.mem_of_getLast? hlast)
      exact given?_nonneg hgiven

private theorem Follows.effectiveLevel_pos (h : Follows ls steps) (name : String) :
    0 < ls.effectiveLevel name := by
  rw [effectiveLevel]
  cases hfind : ((ls.chain name).map fun n => (ls.get n).level).find? (· ≠ 0) with
  | none =>
    have hroot : (ls.get "").level ∈ (ls.chain name).map fun n => (ls.get n).level :=
      List.mem_map.mpr ⟨"", h.linked.root_mem_chain name, rfl⟩
    have hzero := List.find?_eq_none.mp hfind _ hroot
    rw [h.get_root] at hzero
    exact absurd (by decide) hzero
  | some level =>
    obtain ⟨component, -, rfl⟩ := List.mem_map.mp (List.mem_of_find?_eq_some hfind)
    have hne : (ls.get component).level ≠ 0 := by simpa using List.find?_some hfind
    exact lt_of_le_of_ne (h.level_nonneg component) hne.symm

private theorem Follows.level_of_not_setUp (h : Follows ls steps) (hne : component ≠ "")
    (hnot : isSetUp steps component = false) : (ls.get component).level = 0 := by
  have hnil : settingsGiven steps component = [] := by simpa [isSetUp] using hnot
  rw [(h.settled component hne).level, hnil]
  rfl

private theorem Follows.effectiveLevel_eq (h : Follows ls steps)
    (hnear : (ls.chain name).find? (isSetUp steps) = some component)
    (hlevel : levelOf steps component ≠ 0) : ls.effectiveLevel name = levelOf steps component := by
  obtain ⟨hset, before, later, hchain, hbefore⟩ := List.find?_eq_some_iff_append.mp hnear
  have hne : component ≠ "" := by
    rintro rfl
    rw [h.root] at hset
    cases hset
  have hroot : "" ∉ before := by
    intro hmem
    have hordered := h.linked.chain_pairwise name
    rw [hchain] at hordered
    have hlater := (List.pairwise_append.mp hordered).2.2 "" hmem component List.mem_cons_self
    exact absurd rfl (ne_root_of_isBelow (hlater.resolve_left hne))
  have hzero : (before.map fun n => (ls.get n).level).find? (· ≠ 0) = none := by
    rw [List.find?_eq_none]
    intro level hmem
    obtain ⟨other, hother, rfl⟩ := List.mem_map.mp hmem
    have hnot : isSetUp steps other = false := by simpa using hbefore other hother
    simp [h.level_of_not_setUp (fun he => hroot (he ▸ hother)) hnot]
  have hgiven : (ls.get component).level = levelOf steps component :=
    (h.settled component hne).level
  rw [effectiveLevel, hchain, List.map_append, List.find?_append, hzero, List.map_cons, hgiven,
    List.find?_cons_of_pos (by simpa using hlevel)]
  rfl

private theorem Follows.levelOf_le (h : Follows ls steps)
    (hnear : (ls.chain name).find? (isSetUp steps) = some component) :
    levelOf steps component ≤ ls.effectiveLevel name := by
  by_cases hlevel : levelOf steps component = 0
  · exact hlevel ▸ (h.effectiveLevel_pos name).le
  · exact (h.effectiveLevel_eq hnear hlevel).ge

/-! ## Outputs -/

private theorem Follows.outputs_eq (h : Follows ls steps) (names : List String) :
    ls.outputs names = ((names.find? (isSetUp steps)).map fun component =>
      (⟨streamOf steps component, levelOf steps component⟩ : LogOutput)).toList := by
  induction names with
  | nil => rfl
  | cons name names ih =>
    rw [outputs]
    by_cases hroot : name = ""
    · subst hroot
      rw [h.get_root, List.find?_cons_of_neg (by simp [h.root])]
      exact ih
    · obtain ⟨-, houtput, hpassesOn⟩ := h.settled name hroot
      rw [houtput, hpassesOn]
      cases hset : isSetUp steps name with
      | false =>
        have hnil : settingsGiven steps name = [] := by simpa [isSetUp] using hset
        rw [hnil, List.find?_cons_of_neg (by simp [hset])]
        exact ih
      | true =>
        have hsome : settingsGiven steps name ≠ [] := by simpa [isSetUp] using hset
        rw [List.find?_cons_of_pos hset, List.getLast?_eq_some_getLast hsome,
          List.isEmpty_eq_false_iff.mpr hsome]
        simp [streamOf, levelOf, List.getLast?_eq_some_getLast hsome]

private theorem Follows.targets_eq (h : Follows ls steps) (r : LogRecord) :
    ls.targets r = match (ls.chain (canonical r.logger)).find? (isSetUp steps) with
      | some component =>
        if ls.effectiveLevel (canonical r.logger) ≤ r.level then [streamOf steps component] else []
      | none => [] := by
  have hpos := h.effectiveLevel_pos (canonical r.logger)
  rw [targets, h.outputs_eq]
  cases hnear : (ls.chain (canonical r.logger)).find? (isSetUp steps) with
  | none => simp
  | some component =>
    have hle := h.levelOf_le hnear
    by_cases hreach : ls.effectiveLevel (canonical r.logger) ≤ r.level
    · rw [if_pos ⟨by omega, hreach⟩]
      simp [hreach, hle.trans hreach]
    · rw [if_neg fun hboth => hreach hboth.2]
      simp [hreach]

/-- A logger and those above it as a record finds them, the root last. -/
def ancestry (ls : Loggers) (name : String) : List String := (ls.make name).chain (canonical name)

/-- The component that takes the records of a logger: the nearest one that has been set up, from the
logger upwards. -/
def nearest? (steps : List Step) (name : String) : Option String :=
  (ancestry (after steps) name).find? (isSetUp steps)

/-- A record is written to the stream of the nearest component and nowhere else. -/
theorem emit_after (h : ∀ step ∈ steps, step.IsComponent) (time : String) (r : LogRecord)
    (streams : Table String String) :
    ((after steps).emit time r streams).2 = match nearest? steps r.logger with
      | some component =>
        if ((after steps).make r.logger).effectiveLevel (canonical r.logger) ≤ r.level then
          streams.set (streamOf steps component)
            ((streams.get? (streamOf steps component)).getD "" ++ r.line time)
        else streams
      | none => streams := by
  have hfollows := (follows_after h).make r.logger
  rw [emit, hfollows.targets_eq]
  dsimp only
  rw [← ancestry, ← nearest?]
  cases hnear : nearest? steps r.logger with
  | none => rfl
  | some component =>
    have hne : canonical r.logger ≠ "" := by
      intro hroot
      rw [nearest?, ancestry, hroot, chain_root,
        List.find?_cons_of_neg (by simp [hfollows.root])] at hnear
      cases hnear
    dsimp only
    rw [if_neg hne]
    split_ifs <;> rfl

/-- A step that names a level, and so leaves no logger that it asks for unset. -/
def Step.SetsUp : Step → Prop
  | .ask _ => False
  | .setUp _ environment requested _ => ∃ level, Log.resolve environment requested = .ok level

private theorem isSetUp_concat (steps : List Step) (step : Step) (component : String) :
    isSetUp (steps ++ [step]) component =
      (isSetUp steps component || (step.given? component).isSome) := by
  rw [isSetUp, isSetUp, settingsGiven, settingsGiven, List.filterMap_append]
  cases hgiven : step.given? component <;> simp [hgiven]

private theorem Follows.contains_of_isSetUp (h : Follows ls steps)
    (hset : isSetUp steps component = true) :
    ls.settings.contains component = true := by
  have hne : component ≠ "" := by
    rintro rfl
    rw [h.root] at hset
    cases hset
  by_contra hnot
  rw [Bool.not_eq_true] at hnot
  have hfresh : ls.get component = {} := (get_of_not_contains hnot).trans (if_neg hne)
  have houtput := (h.settled component hne).output
  rw [hfresh] at houtput
  have hnil : settingsGiven steps component = [] :=
    List.getLast?_eq_none_iff.mp (Option.map_eq_none_iff.mp houtput.symm)
  rw [isSetUp, hnil] at hset
  cases hset

private theorem isSetUp_of_contains (hsteps : ∀ step ∈ steps, step.SetsUp)
    (h : (after steps).settings.contains component = true) : isSetUp steps component = true := by
  induction steps using List.reverseRecOn with
  | nil => cases h
  | append_singleton steps step ih =>
    have hearlier := ih fun earlier hmem => hsteps earlier (List.mem_append_left _ hmem)
    have hstep := hsteps step (by simp)
    rw [after_concat] at h
    rw [isSetUp_concat, Bool.or_eq_true]
    cases step with
    | ask name => exact absurd hstep id
    | setUp name environment requested stream =>
      obtain ⟨level, hlevel⟩ := hstep
      by_cases he : canonical name = component
      · refine .inr ?_
        rw [Step.given?, hlevel]
        dsimp only
        rw [if_pos he]
        rfl
      · rw [Step.apply, configure, hlevel] at h
        dsimp only at h
        rw [Table.contains, get?_setUp, if_neg he, ← Table.contains] at h
        rcases contains_make_iff.mp h with ⟨hsame, -⟩ | hold
        · exact absurd hsame.symm he
        · exact .inl (hearlier hold)

/-- A component that has been set up takes the records of its logger, or some component below it
does. -/
theorem within_nearest (hsteps : ∀ step ∈ steps, step.IsComponent)
    (hmem : component ∈ ancestry (after steps) name) (hset : isSetUp steps component = true) :
    ∃ nearer, nearest? steps name = some nearer ∧ IsWithin nearer component := by
  have hfollows := (follows_after hsteps).make name
  obtain ⟨nearer, hnear⟩ : ∃ nearer, nearest? steps name = some nearer :=
    Option.isSome_iff_exists.mp (List.find?_isSome.mpr ⟨component, hmem, hset⟩)
  refine ⟨nearer, hnear, ?_⟩
  obtain ⟨-, before, later, hchain, hbefore⟩ := List.find?_eq_some_iff_append.mp hnear
  have hordered := hfollows.linked.chain_pairwise (canonical name)
  rw [← ancestry, hchain] at hordered
  rw [hchain] at hmem
  rcases List.mem_append.mp hmem with hmem | hmem
  · exact absurd hset (by simpa using hbefore component hmem)
  · rcases List.mem_cons.mp hmem with rfl | hmem
    · exact .inl rfl
    · have hne : component ≠ "" := by
        rintro rfl
        rw [hfollows.root] at hset
        cases hset
      have hlater := (List.pairwise_append.mp hordered).2.1
      exact .inr ((List.rel_of_pairwise_cons hlater hmem).resolve_left hne)

/-- What the nearest component is, and that its level counts. -/
theorem nearest?_spec (hsteps : ∀ step ∈ steps, step.IsComponent)
    (h : nearest? steps name = some component) :
    isSetUp steps component = true ∧ IsWithin (canonical name) component ∧
      (levelOf steps component ≠ 0 →
        ((after steps).make name).effectiveLevel (canonical name) = levelOf steps component) := by
  have hfollows := (follows_after hsteps).make name
  have hset : isSetUp steps component = true := List.find?_some h
  refine ⟨hset, ?_, hfollows.effectiveLevel_eq h⟩
  rcases hfollows.linked.isBelow_of_mem_chain (List.mem_of_find?_eq_some h) with he | rfl | hbelow
  · exact .inl he.symm
  · rw [hfollows.root] at hset
    cases hset
  · exact .inr hbelow

private theorem mem_ancestry_of_find? {first : String} (h : WellLinked ls)
    (hne : canonical name ≠ "")
    (hnew : ls.settings.contains (canonical name) = false)
    (hfirst : (enclosing (canonical name)).find? ls.settings.contains = some first) :
    first ∈ ancestry ls name := by
  have hparent : ((ls.make name).get (canonical name)).parent = first := by
    rw [get, get?_make_of_new hne hnew, if_pos rfl, hfirst]
    rfl
  rw [ancestry, (h.make name).chain_eq hne, hparent]
  exact List.mem_cons_of_mem _ (mem_chain_self _ _)

/-- A component that has been set up is passed by only if a nearer one has been set up: for the
logger of that name, and for all those below it but for the two exceptions that there are. -/
theorem nearest?_within (hsteps : ∀ step ∈ steps, step.IsComponent)
    (hset : isSetUp steps component = true) (hname : canonical name = component ∨
      IsPlain (canonical name) ∧ IsBelow (canonical name) component ∧
        (component.toList <+: "root".toList → ∀ step ∈ steps, step.SetsUp)) :
    ∃ nearer, nearest? steps name = some nearer ∧ IsWithin nearer component := by
  have hfollows := follows_after hsteps
  have hlinked := hfollows.linked.make name
  have hthere := hfollows.contains_of_isSetUp hset
  rcases hname with rfl | ⟨hplain, hbelow, hstarts⟩
  · exact within_nearest hsteps (mem_chain_self _ _) hset
  have hne : canonical name ≠ "" := ne_root_of_isBelow hbelow
  by_cases hroot : component.toList <+: "root".toList
  · -- all that is there has been set up
    have hall : ∀ other, (after steps).settings.contains other = true →
        isSetUp steps other = true :=
      fun other => isSetUp_of_contains (hstarts hroot)
    by_cases hknown : (after steps).settings.contains (canonical name) = true
    · obtain ⟨nearer, hnear, hwithin⟩ :=
        within_nearest hsteps (mem_chain_self _ _) (hall _ hknown)
      exact ⟨nearer, hnear, hwithin.trans (.inr hbelow)⟩
    · rw [Bool.not_eq_true] at hknown
      have hcomponent : component ≠ "" := by
        rintro rfl
        rw [hfollows.root] at hset
        cases hset
      have hmem := mem_enclosing_of_isBelow hplain hcomponent hbelow
      obtain ⟨first, hfirst⟩ : ∃ first,
          (enclosing (canonical name)).find? (after steps).settings.contains = some first :=
        Option.isSome_iff_exists.mp (List.find?_isSome.mpr ⟨component, hmem, hthere⟩)
      obtain ⟨nearer, hnear, hwithin⟩ := within_nearest hsteps
        (mem_ancestry_of_find? hfollows.linked hne hknown hfirst) (hall _ (List.find?_some hfirst))
      have hbelowFirst := (isBelow_of_mem_enclosing (List.mem_of_find?_eq_some hfirst)).1
      exact ⟨nearer, hnear, hwithin.trans (hbelowFirst.isWithin hbelow
        (length_le_of_find?_enclosing hfirst hmem hthere))⟩
  · exact within_nearest hsteps (hlinked.mem_chain_of_isBelow (contains_make hne)
      (contains_make_iff.mpr (.inr hthere)) hplain hbelow hroot) hset

end BlockFsck.Loggers
