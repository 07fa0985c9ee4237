import BlockFsck.Proofs.Log.Emission

/-!
# What setting up a component leaves alone

One call more for a component changes that component, and takes loggers from the parents that they
have without it. Nothing else differs, however the history goes on, so that a record that does not
pass the component goes where it went before.
-/

namespace BlockFsck.Loggers

variable {ls others : Loggers} {steps later : List Step} {name component child : String}

/-- The loggers are the other ones with more done to a component. It is there, and loggers may be
linked to it that the other ones have further up. -/
structure Apart (component : String) (ls others : Loggers) : Prop where
  there : ls.settings.contains component = true
  contains : ∀ name, name ≠ component →
    ls.settings.contains name = others.settings.contains name
  settings : ∀ name, name ≠ component → settingsOf (ls.get name) = settingsOf (others.get name)
  parent : ∀ name, name ≠ component → (ls.get name).parent = (others.get name).parent ∨
    (ls.get name).parent = component ∧
      ((others.get name).parent = "" ∨ IsBelow component (others.get name).parent)

private theorem parent_of_not_contains (h : ls.settings.contains name = false) :
    (ls.get name).parent = "" := by
  rw [get_of_not_contains h]
  split_ifs <;> rfl

private theorem apart_make (h : WellLinked ls) (hne : canonical name ≠ "") :
    Apart (canonical name) (ls.make name) ls := by
  by_cases hknown : ls.settings.contains (canonical name) = true
  · rw [make_of_known (.inr hknown)]
    exact ⟨hknown, fun _ _ => rfl, fun _ _ => rfl, fun _ _ => .inl rfl⟩
  rw [Bool.not_eq_true] at hknown
  refine ⟨contains_make hne, fun other hother => ?_,
    fun other _ => settingsOf_get_make ls name other, fun other hother => ?_⟩
  · rw [Bool.eq_iff_iff, contains_make_of_new hne hknown]
    exact or_iff_right hother
  · rw [parent_get_make_of_new hne hknown hother]
    split_ifs with hthere
    · rw [parentAfter]
      split_ifs with hadopt
      · have hparent := (h.parent_of_get other).imp_right And.right
        exact .inr ⟨rfl, isBelow_parent_of_not_starts hparent hadopt.1 hadopt.2⟩
      · exact .inl rfl
    · exact .inl (parent_of_not_contains (by simpa using hthere)).symm

private theorem settingsOf_given {logger other : Logger} (h : settingsOf logger = settingsOf other)
    (level : Int) (stream : Option String) :
    settingsOf (given logger level stream) = settingsOf (given other level stream) := by
  have hgiven : ∀ logger : Logger,
      settingsOf (given logger level stream) = given (settingsOf logger) level stream := by
    intro logger
    cases stream <;> cases houtput : logger.output <;> simp [settingsOf, given, houtput]
  rw [hgiven, hgiven, h]

private theorem apart_setUp (h : WellLinked ls) (hne : canonical name ≠ "") (level : Int)
    (stream : Option String) : Apart (canonical name) (ls.setUp name level stream) ls := by
  have hmade := apart_make h hne
  have hget : ∀ other, other ≠ canonical name →
      (ls.setUp name level stream).get other = (ls.make name).get other := fun other hother => by
    rw [get_setUp, if_neg (Ne.symm hother)]
  constructor
  · rw [contains_setUp ls hne]
    exact hmade.there
  · intro other hother
    rw [contains_setUp ls hne]
    exact hmade.contains other hother
  · intro other hother
    rw [hget other hother]
    exact hmade.settings other hother
  · intro other hother
    rw [hget other hother]
    exact hmade.parent other hother

private theorem not_isBelow_of_starts_root (h : name.toList <+: "root".toList) (above : String) :
    ¬ IsBelow name above := by
  intro hbelow
  have hdot : '.' ∈ "root".toList := h.subset (List.IsPrefix.subset hbelow (by simp))
  exact absurd hdot (by decide)

private theorem Apart.contains_of (h : Apart component ls others)
    (hthere : others.settings.contains name = true) : ls.settings.contains name = true := by
  by_cases hname : name = component
  · exact hname ▸ h.there
  · exact h.contains name hname ▸ hthere

private theorem Apart.find?_enclosing (h : Apart component ls others) (name : String) :
    ((enclosing name).find? ls.settings.contains).getD "" =
        ((enclosing name).find? others.settings.contains).getD "" ∨
      ((enclosing name).find? ls.settings.contains).getD "" = component ∧
        (((enclosing name).find? others.settings.contains).getD "" = "" ∨
          IsBelow component (((enclosing name).find? others.settings.contains).getD "")) := by
  cases hfind : (enclosing name).find? ls.settings.contains with
  | none =>
    have hnone : (enclosing name).find? others.settings.contains = none :=
      List.find?_eq_none.mpr fun above hmem hthere =>
        List.find?_eq_none.mp hfind above hmem (h.contains_of hthere)
    rw [hnone]
    exact .inl rfl
  | some first =>
    have hmem := List.mem_of_find?_eq_some hfind
    have hbelow := (isBelow_of_mem_enclosing hmem).1
    cases hother : (enclosing name).find? others.settings.contains with
    | none =>
      by_cases hsame : first = component
      · exact .inr ⟨hsame, .inl rfl⟩
      · have hthere : ls.settings.contains first = true := List.find?_some hfind
        rw [h.contains first hsame] at hthere
        exact absurd hthere (List.find?_eq_none.mp hother first hmem)
    | some second =>
      have hmem' := List.mem_of_find?_eq_some hother
      have hbelow' := (isBelow_of_mem_enclosing hmem').1
      have hle := length_le_of_find?_enclosing hfind hmem'
        (h.contains_of (List.find?_some hother))
      by_cases hsame : first = component
      · rcases hbelow.isWithin hbelow' hle with he | hpast
        · exact .inl he
        · exact .inr ⟨hsame, .inr (hsame ▸ hpast)⟩
      · have hge := length_le_of_find?_enclosing hother hmem
          (h.contains first hsame ▸ List.find?_some hfind)
        exact .inl (hbelow.eq_of_length hbelow' (le_antisymm hle hge)).symm

private theorem Apart.parentAfter_eq_or (hls : WellLinked ls) (h : Apart component ls others)
    (hne : component ≠ "") (hname : name ≠ component) (hchild : child ≠ component) :
    parentAfter name child (ls.get child) = parentAfter name child (others.get child) ∨
      parentAfter name child (ls.get child) = component ∧
        (parentAfter name child (others.get child) = "" ∨
          IsBelow component (parentAfter name child (others.get child))) := by
  rcases h.parent child hchild with hsame | ⟨hcomponent, hpast⟩
  · left
    rw [parentAfter, parentAfter, parentName, parentName, hsame]
  have hbelow : IsBelow child component := by
    rcases hls.parent_of_get child with hroot | ⟨-, hbelow⟩
    · exact absurd (hcomponent.symm.trans hroot) hne
    · exact hcomponent ▸ hbelow
  have hparentName : parentName (ls.get child) = component := by
    rw [parentName, hcomponent, if_neg hne]
  by_cases hmem : name ∈ enclosing child
  · obtain ⟨hnameBelow, -⟩ := isBelow_of_mem_enclosing hmem
    by_cases hstarts : name.toList <+: component.toList
    · -- the component lies between the child and the new logger
      have hkept : parentAfter name child (ls.get child) = component := by
        rw [parentAfter, hparentName, if_neg fun hadopt => hadopt.2 hstarts, hcomponent]
      have hle : name.length ≤ component.length := by
        simpa only [String.length_toList] using hstarts.length_le
      refine .inr ⟨hkept, ?_⟩
      rcases Loggers.parentAfter_eq_or name child (others.get child) with ⟨hnew, -⟩ | hold
      · rw [hnew]
        exact .inr ((hbelow.isWithin hnameBelow hle).resolve_left (Ne.symm hname))
      · exact hold ▸ hpast
    · -- the new logger lies between the child and the component
      have hnameComponent := hnameBelow.of_not_starts hbelow hstarts
      have hother : ¬ name.toList <+: (parentName (others.get child)).toList := by
        intro hstart
        rw [parentName] at hstart
        split_ifs at hstart with hroot
        · exact not_isBelow_of_starts_root hstart component hnameComponent
        · exact hstarts (hstart.trans (hpast.resolve_left hroot).starts)
      left
      rw [parentAfter, parentAfter, hparentName, if_pos ⟨hmem, hstarts⟩, if_pos ⟨hmem, hother⟩]
  · rw [parentAfter, parentAfter, if_neg fun hadopt => hmem hadopt.1,
      if_neg fun hadopt => hmem hadopt.1]
    exact .inr ⟨hcomponent, hpast⟩

private theorem Apart.parent_eq_parentAfter (hls : WellLinked ls) (hothers : WellLinked others)
    (h : Apart component ls others) (hthere : ls.settings.contains child = true)
    (hchild : child ≠ component) :
    (ls.get child).parent = parentAfter component child (others.get child) ∨
      (ls.get child).parent = component ∧
        (parentAfter component child (others.get child) = "" ∨
          IsBelow component (parentAfter component child (others.get child))) := by
  rcases h.parent child hchild with hsame | ⟨hcomponent, hpast⟩
  · left
    rw [parentAfter]
    split_ifs with hadopt
    · obtain ⟨hmem, hstarts⟩ := hadopt
      have hpast := isBelow_parent_of_not_starts
        ((hothers.parent_of_get child).imp_right And.right) hmem hstarts
      have hroot : ¬ component.toList <+: "root".toList := by
        intro hroot
        by_cases hparent : (others.get child).parent = ""
        · rw [parentName, if_pos hparent] at hstarts
          exact hstarts hroot
        · exact not_isBelow_of_starts_root hroot _ (hpast.resolve_left hparent)
      obtain ⟨logger, hlogger⟩ := Option.isSome_iff_exists.mp hthere
      have hget : ls.get child = logger := by rw [get, hlogger, Option.getD_some]
      rcases hls.linked child logger component hlogger h.there hmem hroot with he | hbelow
      · exact hget ▸ he
      · rw [← hget, hsame] at hbelow
        rw [parentName, if_neg (ne_root_of_isBelow hbelow)] at hstarts
        exact absurd hbelow.starts hstarts
    · exact hsame
  · rcases Loggers.parentAfter_eq_or component child (others.get child) with ⟨hnew, -⟩ | hold
    · exact .inl (hcomponent.trans hnew.symm)
    · exact .inr ⟨hcomponent, hold ▸ hpast⟩

private theorem Apart.make (hls : WellLinked ls) (hothers : WellLinked others)
    (hne : component ≠ "")
    (h : Apart component ls others) (name : String) :
    Apart component (ls.make name) (others.make name) := by
  have hsettings : ∀ other, other ≠ component →
      settingsOf ((ls.make name).get other) = settingsOf ((others.make name).get other) := by
    intro other hother
    rw [settingsOf_get_make, settingsOf_get_make, h.settings other hother]
  have hcontains : ∀ other, other ≠ component →
      (ls.make name).settings.contains other = (others.make name).settings.contains other := by
    intro other hother
    rw [Bool.eq_iff_iff, contains_make_iff, contains_make_iff, h.contains other hother]
  refine ⟨contains_make_iff.mpr (.inr h.there), hcontains, hsettings, fun other hother => ?_⟩
  by_cases hroot : canonical name = ""
  · rw [make_of_known (.inl hroot), make_of_known (.inl hroot)]
    exact h.parent other hother
  by_cases hknown : others.settings.contains (canonical name) = true
  · rw [make_of_known (.inr hknown), make_of_known (.inr (h.contains_of hknown))]
    exact h.parent other hother
  rw [Bool.not_eq_true] at hknown
  by_cases hsame : canonical name = component
  · have hkept : ls.make name = ls := make_of_known (.inr (hsame ▸ h.there))
    rw [hkept, parent_get_make_of_new hroot hknown (hsame ▸ hother), ← h.contains other hother,
      hsame]
    split_ifs with hthere
    · exact h.parent_eq_parentAfter hls hothers hthere hother
    · exact .inl (parent_of_not_contains (by simpa using hthere))
  have hnew : ls.settings.contains (canonical name) = false := h.contains _ hsame ▸ hknown
  by_cases he : other = canonical name
  · rw [get, get?_make_of_new hroot hnew, get, get?_make_of_new hroot hknown, if_pos he, if_pos he]
    exact h.find?_enclosing _
  · rw [parent_get_make_of_new hroot hnew he, parent_get_make_of_new hroot hknown he,
      h.contains other hother]
    split_ifs
    · exact h.parentAfter_eq_or hls hne hsame hother
    · exact .inl rfl

private theorem Apart.setUp (hls : WellLinked ls) (hothers : WellLinked others)
    (hne : component ≠ "")
    (h : Apart component ls others) (hname : canonical name ≠ "") (level : Int)
    (stream : Option String) :
    Apart component (ls.setUp name level stream) (others.setUp name level stream) := by
  have hmade := h.make hls hothers hne name
  constructor
  · rw [contains_setUp ls hname]
    exact hmade.there
  · intro other hother
    rw [contains_setUp ls hname, contains_setUp others hname]
    exact hmade.contains other hother
  · intro other hother
    rw [get_setUp, get_setUp]
    split_ifs
    · exact settingsOf_given (hmade.settings other hother) level stream
    · exact hmade.settings other hother
  · intro other hother
    have hparent : ∀ ls : Loggers, ((ls.setUp name level stream).get other).parent =
        ((ls.make name).get other).parent := by
      intro ls
      rw [get_setUp]
      split_ifs
      · exact given_parent _ level stream
      · rfl
    rw [hparent, hparent]
    exact hmade.parent other hother

private theorem Apart.apply (hls : WellLinked ls) (hothers : WellLinked others)
    (hne : component ≠ "")
    (h : Apart component ls others) {step : Step} (hstep : step.IsComponent) :
    Apart component (step.apply ls) (step.apply others) := by
  cases step with
  | ask name => exact h.make hls hothers hne name
  | setUp name environment requested stream =>
    rw [Step.apply, Step.apply, configure, configure]
    cases Log.resolve environment requested with
    | error misnomer => exact h.make hls hothers hne name
    | ok level => exact h.setUp hls hothers hne hstep level stream

private theorem Apart.foldl (hls : WellLinked ls) (hothers : WellLinked others)
    (hne : component ≠ "")
    (h : Apart component ls others) (hlater : ∀ step ∈ later, step.IsComponent) :
    Apart component (later.foldl Step.apply ls) (later.foldl Step.apply others) := by
  induction later generalizing ls others with
  | nil => exact h
  | cons step later ih =>
    have hstep := hlater step List.mem_cons_self
    exact ih (wellLinked_apply hls hstep) (wellLinked_apply hothers hstep)
      (h.apply hls hothers hne hstep) fun other hmem => hlater other (List.mem_cons_of_mem _ hmem)

/-! ## Records that do not pass the component -/

private theorem Apart.chain_eq (hls : WellLinked ls) (hothers : WellLinked others)
    (h : Apart component ls others) (hout : component ∉ ls.chain name) :
    others.chain name = ls.chain name := by
  induction name using hls.chain_induction with
  | root => rfl
  | step name hne ih =>
    rw [hls.chain_eq hne] at hout ⊢
    have habove := List.not_mem_of_not_mem_cons hout
    have hparent : (ls.get name).parent = (others.get name).parent :=
      (h.parent name (List.ne_of_not_mem_cons hout).symm).resolve_right fun hcomponent =>
        habove (hcomponent.1 ▸ mem_chain_self _ _)
    rw [hothers.chain_eq hne, ← hparent, ih habove]

private theorem outputs_congr {names : List String}
    (h : ∀ name ∈ names, settingsOf (ls.get name) = settingsOf (others.get name)) :
    ls.outputs names = others.outputs names := by
  induction names with
  | nil => rfl
  | cons name names ih =>
    obtain ⟨-, houtput, hpassesOn, -⟩ := Logger.mk.inj (h name List.mem_cons_self)
    rw [outputs, outputs, houtput, hpassesOn,
      ih fun other hmem => h other (List.mem_cons_of_mem _ hmem)]

private theorem Apart.targets_eq (hls : WellLinked ls) (hothers : WellLinked others)
    (h : Apart component ls others) {r : LogRecord}
    (hout : component ∉ ls.chain (canonical r.logger)) : ls.targets r = others.targets r := by
  have hchain := h.chain_eq hls hothers hout
  have hsettings : ∀ name ∈ ls.chain (canonical r.logger),
      settingsOf (ls.get name) = settingsOf (others.get name) :=
    fun name hmem => h.settings name fun hname => hout (hname ▸ hmem)
  have hlevel : ls.effectiveLevel (canonical r.logger) =
      others.effectiveLevel (canonical r.logger) := by
    rw [effectiveLevel, effectiveLevel, hchain]
    congr 2
    exact List.map_congr_left fun name hmem => (Logger.mk.inj (hsettings name hmem)).1
  rw [targets, targets, hlevel, hchain, outputs_congr hsettings]

/-- A call for a component changes neither whether nor where a record is written that does not pass
that component, at once or after whatever is done next. -/
theorem emit_of_not_mem_ancestry {environment requested stream : Option String}
    (hsteps : ∀ step ∈ steps, step.IsComponent) (hlater : ∀ step ∈ later, step.IsComponent)
    (hne : canonical component ≠ "") (time : String) (r : LogRecord)
    (streams : Table String String)
    (hout : canonical component ∉ ancestry
      (after (steps ++ .setUp component environment requested stream :: later)) r.logger) :
    ((after (steps ++ .setUp component environment requested stream :: later)).emit
      time r streams).2 = ((after (steps ++ later)).emit time r streams).2 := by
  have hstep : (Step.setUp component environment requested stream).IsComponent := hne
  have hls : WellLinked (after (steps ++ .setUp component environment requested stream :: later)) :=
    wellLinked_after (List.forall_mem_append.mpr
      ⟨hsteps, List.forall_mem_cons.mpr ⟨hstep, hlater⟩⟩)
  have hothers : WellLinked (after (steps ++ later)) :=
    wellLinked_after (List.forall_mem_append.mpr ⟨hsteps, hlater⟩)
  have hapart : Apart (canonical component)
      (after (steps ++ .setUp component environment requested stream :: later))
      (after (steps ++ later)) := by
    have hbefore := wellLinked_after hsteps
    rw [after, after, List.foldl_append, List.foldl_append]
    refine Apart.foldl (wellLinked_apply hbefore hstep) hbefore hne ?_ hlater
    rw [Step.apply, configure]
    cases Log.resolve environment requested with
    | error misnomer => exact apart_make hbefore hne
    | ok level => exact apart_setUp hbefore hne level stream
  have htargets := (hapart.make hls hothers hne r.logger).targets_eq (hls.make r.logger)
    (hothers.make r.logger) hout
  rw [emit, emit, htargets]

/-- Whatever components have been set up, a record goes once to the stream of the nearest one if its
level reaches that of its logger, and nowhere else. A component that has been set up is nearer than
all that enclose it, and the calls for components that a record does not pass make no difference to
it. A record passes components only that enclose its logger. -/
theorem record_goes_to_nearest_component (steps : List Step)
    (hsteps : ∀ step ∈ steps, step.IsComponent) (time : String) (r : LogRecord)
    (streams : Table String String) :
    (((after steps).emit time r streams).2 = match nearest? steps r.logger with
      | some component =>
        if ((after steps).make r.logger).effectiveLevel (canonical r.logger) ≤ r.level then
          streams.set (streamOf steps component)
            ((streams.get? (streamOf steps component)).getD "" ++ r.line time)
        else streams
      | none => streams) ∧
    (∀ component, nearest? steps r.logger = some component →
      isSetUp steps component = true ∧ IsWithin (canonical r.logger) component ∧
        (levelOf steps component ≠ 0 →
          ((after steps).make r.logger).effectiveLevel (canonical r.logger) =
            levelOf steps component)) ∧
    (∀ component, isSetUp steps component = true →
      (component ∈ ancestry (after steps) r.logger ∨ canonical r.logger = component ∨
        IsPlain (canonical r.logger) ∧ IsBelow (canonical r.logger) component ∧
          (component.toList <+: "root".toList → ∀ step ∈ steps, step.SetsUp)) →
      ∃ nearer, nearest? steps r.logger = some nearer ∧ IsWithin nearer component) ∧
    (∀ above ∈ ancestry (after steps) r.logger,
      above = "" ∨ IsWithin (canonical r.logger) above) ∧
    ∀ before component environment requested stream later,
      steps = before ++ .setUp component environment requested stream :: later →
      canonical component ∉ ancestry (after steps) r.logger →
      ((after steps).emit time r streams).2 =
        ((after (before ++ later)).emit time r streams).2 := by
  refine ⟨emit_after hsteps time r streams, fun component hnear => nearest?_spec hsteps hnear,
    fun component hset hname => ?_, fun above hmem => ?_, ?_⟩
  · rcases hname with hmem | hname
    · exact within_nearest hsteps hmem hset
    · exact nearest?_within hsteps hset hname
  · have hlinked := (wellLinked_after hsteps).make r.logger
    rcases hlinked.isBelow_of_mem_chain hmem with he | hroot | hbelow
    · exact .inr (.inl he.symm)
    · exact .inl hroot
    · exact .inr (.inr hbelow)
  · rintro before component environment requested stream later rfl hout
    obtain ⟨hbefore, hstep⟩ := List.forall_mem_append.mp hsteps
    obtain ⟨hne, hlater⟩ := List.forall_mem_cons.mp hstep
    exact emit_of_not_mem_ancestry hbefore hlater hne time r streams hout

/-- A component within another one that was set up before and after it, in the second call without
a stream: the record goes to the stream of the inner one alone. -/
theorem record_goes_to_nearest_component_nested :
    (∀ step ∈ [Step.setUp "fsck" none (some "DEBUG") (some "outer"),
        Step.setUp "fsck.walk" none (some "WARNING") (some "inner"),
        Step.setUp "fsck" (some "ERROR") none none], step.IsComponent) ∧
      ((after [Step.setUp "fsck" none (some "DEBUG") (some "outer"),
        Step.setUp "fsck.walk" none (some "WARNING") (some "inner"),
        Step.setUp "fsck" (some "ERROR") none none]).emit
          "noon" ⟨"fsck.walk", 30, "slow"⟩ .empty).2 =
        Table.empty.set "inner" "noon - fsck.walk - WARNING - slow\n" := by
  have hsteps : ∀ step ∈ [Step.setUp "fsck" none (some "DEBUG") (some "outer"),
      Step.setUp "fsck.walk" none (some "WARNING") (some "inner"),
      Step.setUp "fsck" (some "ERROR") none none], step.IsComponent := by
    simp [Step.IsComponent, canonical]
  refine ⟨hsteps, ?_⟩
  rw [(record_goes_to_nearest_component _ hsteps "noon" ⟨"fsck.walk", 30, "slow"⟩ .empty).1]
  decide

end BlockFsck.Loggers
