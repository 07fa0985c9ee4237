import BlockFsck.Proofs.Deed
import BlockFsck.Proofs.Check
import BlockFsck.Proofs.Namespace.Refusal

/-!
# What a program does, call by call

Others may change the namespace between any two calls of a program, so that each call meets a
namespace of its own. A program conducts itself well if each query is permitted after the calls that
were made before, and what it ends in is in keeping with all its calls, whatever they met.
-/

namespace BlockFsck

/-- One query, and the namespace that it met. -/
structure Call where
  query : Query
  met : Namespace

namespace Call

/-- The record that was read, where a file was read. -/
def record? (call : Call) : Option FileRecord :=
  match call.query with
  | .blockLocations path => (call.met.blockLocations path).toOption
  | _ => none

/-- What was done to a file, if the call was granted. -/
def deed? (call : Call) : Option Deed :=
  match call.query with
  | .rename source target =>
    if ((Namespace.rename source target).run call.met).1 = .ok true then
      some (.moved (Path.names source) (Path.names target))
    else none
  | .delete path recursive =>
    if ((Namespace.delete path recursive).run call.met).1 = .ok true then
      some (.deleted (Path.names path))
    else none
  | _ => none

theorem deed?_rename {source target : Path} (hs : source.Valid) (ht : target.Valid)
    (met : Namespace) : (⟨.rename source.text target.text, met⟩ : Call).deed? =
      if met.CanRename source target then some (.moved source target) else none := by
  rw [deed?]
  dsimp only
  rw [Namespace.run_rename_text met hs ht, Path.names_text hs, Path.names_text ht]
  by_cases hcan : met.CanRename source target <;> simp [hcan]

private theorem deed?_delete {path : Path} (hv : path.Valid) (recursive : Bool) (met : Namespace) :
    (⟨.delete path.text recursive, met⟩ : Call).deed? =
      if path ≠ [] ∧ (met.node? path).isSome ∧ (recursive ∨ met.isEmptyBelow path) then
        some (.deleted path)
      else none := by
  rw [deed?]
  dsimp only
  rw [Namespace.run_delete_text met hv, Path.names_text hv]
  by_cases hcan : path ≠ [] ∧ (met.node? path).isSome ∧ (recursive ∨ met.isEmptyBelow path) <;>
    simp [hcan]

/-- An entry was read that was of the other kind: a directory as a file, or a file as a directory. -/
inductive Misread : Call → NamespaceError → Prop
  | directory {path : Path} {met : Namespace} (hv : path.Valid)
      (hn : met.node? path = some .directory) :
      Misread ⟨.blockLocations path.text, met⟩ (.notFile path.text)
  | file {path : Path} {met : Namespace} {content : FileNode} (hv : path.Valid)
      (hn : met.node? path = some (.file content)) :
      Misread ⟨.listChildren path.text, met⟩ (.notDirectory path.text)

private theorem misread_blockLocations {path : Path} (hv : path.Valid) {met : Namespace}
    {cause : NamespaceError} : (⟨.blockLocations path.text, met⟩ : Call).Misread cause ↔
      met.node? path = some .directory ∧ cause = .notFile path.text := by
  constructor
  · intro h
    generalize hcall : Call.mk (.blockLocations path.text) met = call at h
    cases h with
    | @directory other _ ho hn =>
      simp only [Call.mk.injEq, Query.blockLocations.injEq] at hcall
      obtain ⟨htext, rfl⟩ := hcall
      rw [(Path.text_inj hv ho).mp htext]
      exact ⟨hn, rfl⟩
    | file ho hn => simp at hcall
  · rintro ⟨hn, rfl⟩
    exact .directory hv hn

private theorem misread_listChildren {path : Path} (hv : path.Valid) {met : Namespace}
    {cause : NamespaceError} : (⟨.listChildren path.text, met⟩ : Call).Misread cause ↔
      (∃ content, met.node? path = some (.file content)) ∧ cause = .notDirectory path.text := by
  constructor
  · intro h
    generalize hcall : Call.mk (.listChildren path.text) met = call at h
    cases h with
    | directory ho hn => simp at hcall
    | @file other _ content ho hn =>
      simp only [Call.mk.injEq, Query.listChildren.injEq] at hcall
      obtain ⟨htext, rfl⟩ := hcall
      rw [(Path.text_inj hv ho).mp htext]
      exact ⟨⟨content, hn⟩, rfl⟩
  · rintro ⟨⟨content, hn⟩, rfl⟩
    exact .file hv hn

theorem Misread.unique {call : Call} {cause other : NamespaceError} (h : call.Misread cause)
    (ho : call.Misread other) : cause = other := by
  cases h with
  | directory hv hn => exact ((misread_blockLocations hv).mp ho).2.symm
  | file hv hn => exact ((misread_listChildren hv).mp ho).2.symm

end Call

/-- The records that were read, in order. -/
def recordsOf (calls : List Call) : List FileRecord := calls.filterMap Call.record?

/-- What was done, in order. -/
def deedsOf (calls : List Call) : List Deed := calls.filterMap Call.deed?

theorem recordsOf_append (calls more : List Call) :
    recordsOf (calls ++ more) = recordsOf calls ++ recordsOf more := List.filterMap_append

theorem deedsOf_append (calls more : List Call) :
    deedsOf (calls ++ more) = deedsOf calls ++ deedsOf more := List.filterMap_append

private theorem recordsOf_singleton (call : Call) : recordsOf [call] = call.record?.toList := by
  cases h : call.record? <;> simp [recordsOf, h]

theorem deedsOf_singleton (call : Call) : deedsOf [call] = call.deed?.toList := by
  cases h : call.deed? <;> simp [deedsOf, h]

/-- No entry was read that was of the other kind. -/
def Smooth (calls : List Call) : Prop := ∀ call ∈ calls, ∀ cause, ¬ call.Misread cause

/-- Some call met an entry at the path. -/
def Seen (calls : List Call) (path : Path) : Prop :=
  path.Valid ∧ ∃ call ∈ calls, call.met.node? path ≠ none

theorem Seen.mono {calls more : List Call} {path : Path} (h : Seen calls path)
    (hp : calls <+: more) : Seen more path := by
  obtain ⟨hv, call, hmem, hn⟩ := h
  exact ⟨hv, call, hp.subset hmem, hn⟩

theorem seen_of_last {calls after : List Call} {call : Call} {path : Path}
    (hafter : after = calls ++ [call]) (hv : path.Valid) (hn : call.met.node? path ≠ none) :
    Seen after path := by
  refine ⟨hv, call, ?_, hn⟩
  rw [hafter]
  exact List.mem_append_right calls (List.mem_singleton_self call)

/-- A record that was read is that of a file that the call met. -/
theorem exists_of_mem_recordsOf {calls : List Call} {record : FileRecord}
    (h : record ∈ recordsOf calls) : ∃ call ∈ calls, ∃ path content,
      call.met.node? path = some (.file content) ∧ path.Valid ∧
        record = call.met.recordOf path content := by
  obtain ⟨call, hmem, hrecord⟩ := List.mem_filterMap.mp h
  refine ⟨call, hmem, ?_⟩
  obtain ⟨query, met⟩ := call
  cases query <;> simp only [Call.record?, reduceCtorEq] at hrecord
  case blockLocations text =>
    rw [Namespace.blockLocations] at hrecord
    cases hf : met.findFile text with
    | error e =>
      rw [hf] at hrecord
      cases hrecord
    | ok found =>
      obtain ⟨path, content⟩ := found
      obtain ⟨hp, hn⟩ := Namespace.findFile_eq_ok.mp hf
      rw [hf] at hrecord
      exact ⟨path, content, hn, Namespace.valid_of_readPath hp, (Option.some.inj hrecord).symm⟩

/-- Calls that went on smoothly, and what they have read and done. -/
structure Adds (calls after : List Call) (records : List FileRecord) (deeds : List Deed) :
    Prop where
  extends_calls : calls <+: after
  records_eq : recordsOf after = recordsOf calls ++ records
  deeds_eq : deedsOf after = deedsOf calls ++ deeds
  smooth : Smooth calls → Smooth after

namespace Adds

variable {calls between after : List Call} {records others : List FileRecord}
  {deeds more : List Deed}

theorem refl (calls : List Call) : Adds calls calls [] [] where
  extends_calls := List.prefix_refl calls
  records_eq := (List.append_nil _).symm
  deeds_eq := (List.append_nil _).symm
  smooth h := h

theorem trans (h : Adds calls between records deeds) (h' : Adds between after others more) :
    Adds calls after (records ++ others) (deeds ++ more) where
  extends_calls := h.extends_calls.trans h'.extends_calls
  records_eq := by rw [h'.records_eq, h.records_eq, List.append_assoc]
  deeds_eq := by rw [h'.deeds_eq, h.deeds_eq, List.append_assoc]
  smooth hs := h'.smooth (h.smooth hs)

theorem records_more {more : List Call} (h : Adds calls (calls ++ more) records deeds) :
    recordsOf more = records :=
  List.append_cancel_left ((recordsOf_append calls more).symm.trans h.records_eq)

theorem idle (h : Adds calls between records deeds) (h' : Adds between after [] []) :
    Adds calls after records deeds := by
  simpa using h.trans h'

theorem after_idle (h : Adds calls between [] []) (h' : Adds between after records deeds) :
    Adds calls after records deeds := by
  simpa using h.trans h'

private theorem call {call : Call} (h : ∀ cause, ¬ call.Misread cause) :
    Adds calls (calls ++ [call]) call.record?.toList call.deed?.toList where
  extends_calls := List.prefix_append ..
  records_eq := by rw [recordsOf_append, recordsOf_singleton]
  deeds_eq := by rw [deedsOf_append, deedsOf_singleton]
  smooth hs := by
    intro other hmem
    rcases List.mem_append.mp hmem with hmem | hmem
    · exact hs other hmem
    · rw [List.mem_singleton.mp hmem]
      exact h

private theorem call_of_other {call : Call} (hfile : ∀ path, call.query ≠ .blockLocations path)
    (hdirectory : ∀ path, call.query ≠ .listChildren path) :
    Adds calls (calls ++ [call]) call.record?.toList call.deed?.toList := by
  refine .call fun cause hmisread => ?_
  cases hmisread with
  | directory => exact hfile _ rfl
  | file => exact hdirectory _ rfl

end Adds

namespace Program

variable {α β : Type}

/-- After these calls the program asks only what is permitted, and its result is in keeping with all
its calls, whichever well-formed namespaces they meet. -/
inductive Conducts (Permitted : List Call → Query → Prop) (Ends : α → List Call → Prop) :
    List Call → Program Metadata α → Prop
  | done {calls : List Call} {result : α} (h : Ends result calls) :
      Conducts Permitted Ends calls (.done result)
  | log {calls : List Call} {r : LogRecord} {next : Unit → Program Metadata α}
      (hnext : Conducts Permitted Ends calls (next ())) :
      Conducts Permitted Ends calls (.ask (.log r) next)
  | query {calls : List Call} {q : Query} {next : Except Failure q.Reply → Program Metadata α}
      (hq : Permitted calls q)
      (hnext : ∀ ns : Namespace, ns.Valid → Conducts Permitted Ends (calls ++ [⟨q, ns⟩])
        (next ((Metadata.onNamespace.query q).run ns).1)) :
      Conducts Permitted Ends calls (.ask (.query q) next)

variable {Permitted : List Call → Query → Prop} {Ends : α → List Call → Prop}
  {calls : List Call} {p : Program Metadata α}

theorem Conducts.bind {Ends' : β → List Call → Prop} {f : α → Program Metadata β}
    (hp : p.Conducts Permitted Ends calls)
    (hf : ∀ {result after}, Ends result after → (f result).Conducts Permitted Ends' after) :
    (p.bind f).Conducts Permitted Ends' calls := by
  induction hp with
  | done h => exact hf h
  | log _ ih => exact .log ih
  | query hq _ ih => exact .query hq ih

/-- In the end there are the calls from before, and more. -/
theorem Conducts.longer (hp : p.Conducts Permitted Ends calls) :
    p.Conducts Permitted (fun result after => calls <+: after ∧ Ends result after) calls := by
  induction hp with
  | done h => exact .done ⟨List.prefix_refl _, h⟩
  | log _ ih => exact .log ih
  | @query calls q next hq _ ih =>
    refine .query hq fun met hmet => ?_
    rw [← bind_pure_done (next _)]
    refine (ih met hmet).bind fun ⟨hafter, hresult⟩ => .done ⟨?_, hresult⟩
    exact (List.prefix_append ..).trans hafter

end Program

/-! ## Steps of a check -/

namespace Check

variable {σ α β : Type}

/-- The step ends in a value or in a failure, with a state, in keeping with all calls. -/
def Conducts (Permitted : List Call → Query → Prop) (step : Check σ α) (s : σ)
    (calls : List Call) (Ends : α → σ → List Call → Prop)
    (Fails : Failure → σ → List Call → Prop) : Prop :=
  (step.start s).Conducts Permitted (fun ended after => match ended with
    | (.ok a, s') => Ends a s' after
    | (.error failure, s') => Fails failure s' after) calls

namespace Conducts

variable {Permitted : List Call → Query → Prop} {s : σ} {calls : List Call}
  {Ends : α → σ → List Call → Prop} {Fails : Failure → σ → List Call → Prop}

theorem pure {a : α} (h : Ends a s calls) :
    (pure a : Check σ α).Conducts Permitted s calls Ends Fails := .done h

theorem throw {failure : Failure} (h : Fails failure s calls) :
    (throw failure : Check σ α).Conducts Permitted s calls Ends Fails := .done h

theorem get {Ends : σ → σ → List Call → Prop} (h : Ends s s calls) :
    (get : Check σ σ).Conducts Permitted s calls Ends Fails := .done h

theorem modify {f : σ → σ} {Ends : Unit → σ → List Call → Prop} (h : Ends () (f s) calls) :
    (modify f : Check σ Unit).Conducts Permitted s calls Ends Fails := .done h

theorem log (r : LogRecord) {Ends : Unit → σ → List Call → Prop} (h : Ends () s calls) :
    (log r : Check σ Unit).Conducts Permitted s calls Ends Fails :=
  Program.Conducts.log (.done h)

/-- What holds in the end and on failure may be said less precisely. -/
theorem mono {step : Check σ α} {Ends' : α → σ → List Call → Prop}
    {Fails' : Failure → σ → List Call → Prop}
    (h : step.Conducts Permitted s calls Ends' Fails')
    (hends : ∀ {a s' after}, Ends' a s' after → Ends a s' after)
    (hfails : ∀ {failure s' after}, Fails' failure s' after → Fails failure s' after) :
    step.Conducts Permitted s calls Ends Fails := by
  rw [Conducts, ← Program.bind_pure_done (step.start s)]
  apply Program.Conducts.bind h
  rintro ⟨failure | a, s'⟩ after hended
  · exact .done (hfails hended)
  · exact .done (hends hended)

theorem longer {step : Check σ α} (h : step.Conducts Permitted s calls Ends Fails) :
    step.Conducts Permitted s calls (fun a s' after => calls <+: after ∧ Ends a s' after) Fails := by
  rw [Conducts, ← Program.bind_pure_done (step.start s)]
  apply Program.Conducts.bind (Program.Conducts.longer h)
  rintro ⟨failure | a, s'⟩ after ⟨hafter, hended⟩
  · exact .done hended
  · exact .done ⟨hafter, hended⟩

theorem bind {step : Check σ α} {next : α → Check σ β} {Ends : β → σ → List Call → Prop}
    (h : step.Conducts Permitted s calls
      (fun a s' after => (next a).Conducts Permitted s' after Ends Fails) Fails) :
    (step >>= next).Conducts Permitted s calls Ends Fails := by
  rw [Conducts, start_bind]
  apply Program.Conducts.bind h
  rintro ⟨failure | a, s'⟩ after hended
  · exact .done hended
  · exact hended

theorem tryCatch {step : Check σ α} {handle : Failure → Check σ α}
    (h : step.Conducts Permitted s calls Ends fun failure s' after =>
      (handle failure).Conducts Permitted s' after Ends Fails) :
    (tryCatch step handle : Check σ α).Conducts Permitted s calls Ends Fails := by
  rw [Conducts, start_tryCatch]
  apply Program.Conducts.bind h
  rintro ⟨failure | a, s'⟩ after hended
  · exact hended
  · exact .done hended

/-- What each visit keeps, a loop keeps. -/
theorem forM {visit : β → Check σ Unit} (Keeps : σ → List Call → Prop) {xs : List β}
    (hvisit : ∀ x ∈ xs, ∀ s' after, Keeps s' after →
      (visit x).Conducts Permitted s' after (fun _ => Keeps) Fails) (h : Keeps s calls) :
    (xs.forM visit).Conducts Permitted s calls (fun _ => Keeps) Fails := by
  induction xs generalizing s calls with
  | nil => exact pure h
  | cons x xs ih =>
    have hfirst := hvisit x (List.mem_cons_self ..) s calls h
    have hrest := fun other hmem => hvisit other (List.mem_cons_of_mem x hmem)
    exact bind (hfirst.mono (ih hrest) fun hfailed => hfailed)

private theorem query {q : Query} {Ends : q.Reply → σ → List Call → Prop} (hq : Permitted calls q)
    (h : ∀ met : Namespace, met.Valid → match (q.onNamespace.run met).1 with
      | .ok reply => Ends reply s (calls ++ [⟨q, met⟩])
      | .error cause => Fails (.namespaceRefused cause) s (calls ++ [⟨q, met⟩])) :
    (Check.query q : Check σ q.Reply).Conducts Permitted s calls Ends Fails := by
  refine Program.Conducts.query hq fun met hmet => ?_
  have hanswer : ((Metadata.onNamespace.query q).run met).1 =
      (q.onNamespace.run met).1.mapError .namespaceRefused := rfl
  have hended := h met hmet
  rw [hanswer]
  generalize (q.onNamespace.run met).1 = answer at *
  cases answer <;> exact .done hended

private theorem lookup {q : Query} {f : q.Reply → α} {default : α} (hq : Permitted calls q)
    (h : ∀ met : Namespace, met.Valid → match (q.onNamespace.run met).1 with
      | .ok reply => Ends (f reply) s (calls ++ [⟨q, met⟩])
      | .error cause =>
        if (Failure.namespaceRefused cause).isMissing = true then
          Ends default s (calls ++ [⟨q, met⟩])
        else Fails (.namespaceRefused cause) s (calls ++ [⟨q, met⟩])) :
    (orIfMissing (f <$> Check.query q) default).Conducts Permitted s calls Ends Fails := by
  have hmap : (f <$> Check.query q : Check σ α).Conducts Permitted s calls Ends
      fun failure s' after => if failure.isMissing = true then Ends default s' after
        else Fails failure s' after := by
    rw [map_eq_pure_bind]
    refine bind (query hq fun met hmet => ?_)
    have hended := h met hmet
    generalize (q.onNamespace.run met).1 = answer at *
    cases answer with
    | ok reply => exact pure hended
    | error cause => exact hended
  refine tryCatch (hmap.mono (fun hended => hended) fun {failure s' after} hfailed => ?_)
  split_ifs at hfailed ⊢
  · exact pure hfailed
  · exact throw hfailed

theorem resolve {path : Path} (hv : path.Valid) {Ends : Option Entry → σ → List Call → Prop}
    (hq : Permitted calls (.resolve path.text))
    (h : ∀ (met : Namespace) {after}, after = calls ++ [⟨.resolve path.text, met⟩] →
      Adds calls after [] [] →
      Ends ((met.node? path).map fun node => ⟨path.text, node.kind⟩) s after) :
    (Check.query (.resolve path.text) : Check σ _).Conducts Permitted s calls Ends Fails := by
  refine query hq fun met _ => ?_
  rw [Query.onNamespace, Namespace.run_look, Namespace.resolve_text met hv]
  exact h met rfl (Adds.call_of_other (by simp) (by simp))

theorem corruptFiles {Ends : List String → σ → List Call → Prop}
    (hq : Permitted calls .corruptFiles)
    (h : ∀ (met : Namespace) {after}, met.Valid → after = calls ++ [⟨.corruptFiles, met⟩] →
      Adds calls after [] [] → Ends met.corruptFiles s after) :
    (Check.query .corruptFiles : Check σ _).Conducts Permitted s calls Ends Fails :=
  query hq fun met hmet => h met hmet rfl (Adds.call_of_other (by simp) (by simp))

theorem mkdirs {path : Path} (hv : path.Valid) {Ends : Bool → σ → List Call → Prop}
    (hq : Permitted calls (.mkdirs path.text))
    (h : ∀ (made : Bool) {after}, Adds calls after [] [] → Ends made s after) :
    (Check.query (.mkdirs path.text) : Check σ _).Conducts Permitted s calls Ends Fails := by
  refine query hq fun met hmet => ?_
  have hadds : ∀ met : Namespace, Adds calls (calls ++ [⟨.mkdirs path.text, met⟩]) [] [] :=
    fun met => Adds.call_of_other (by simp) (by simp)
  rw [Query.onNamespace, Namespace.run_mkdirs_text met hv]
  rcases Namespace.run_makeDirectories met path with ⟨-, hrun⟩ | ⟨-, hrun⟩
  · rw [hrun]
    exact h true (hadds met)
  · rw [hrun]
    exact h false (hadds met)

theorem rename {source target : Path} (hs : source.Valid) (ht : target.Valid)
    {Ends : Bool → σ → List Call → Prop} (hq : Permitted calls (.rename source.text target.text))
    (h : ∀ (granted : Bool) {after},
      Adds calls after [] (if granted then [.moved source target] else []) →
        Ends granted s after) :
    (Check.query (.rename source.text target.text) : Check σ _).Conducts Permitted s calls Ends
      Fails := by
  refine query hq fun met _ => ?_
  have hadds : Adds calls (calls ++ [⟨.rename source.text target.text, met⟩]) _ _ :=
    Adds.call_of_other (by simp) (by simp)
  rw [Call.deed?_rename hs ht] at hadds
  rw [Query.onNamespace, Namespace.run_rename_text met hs ht]
  split_ifs at hadds ⊢
  · exact h true hadds
  · exact h false hadds

theorem delete {path : Path} (hv : path.Valid) {recursive : Bool}
    {Ends : Bool → σ → List Call → Prop} (hq : Permitted calls (.delete path.text recursive))
    (h : ∀ (granted : Bool) {after}, Adds calls after [] (if granted then [.deleted path] else []) →
      Ends granted s after) :
    (Check.query (.delete path.text recursive) : Check σ _).Conducts Permitted s calls Ends
      Fails := by
  refine query hq fun met _ => ?_
  have hadds : Adds calls (calls ++ [⟨.delete path.text recursive, met⟩]) _ _ :=
    Adds.call_of_other (by simp) (by simp)
  rw [Call.deed?_delete hv] at hadds
  rw [Query.onNamespace, Namespace.run_delete_text met hv]
  split_ifs at hadds ⊢
  · exact h true hadds
  · exact h false hadds

/-- The record of a file, if it is there still; a directory in its place ends the step. -/
theorem record {path : Path} (hv : path.Valid) {Ends : Option FileRecord → σ → List Call → Prop}
    (hq : Permitted calls (.blockLocations path.text))
    (hfile : ∀ (met : Namespace) (content : FileNode) {after},
      met.node? path = some (.file content) → Adds calls after [met.recordOf path content] [] →
        Ends (some (met.recordOf path content)) s after)
    (hnone : ∀ {after}, Adds calls after [] [] → Ends none s after)
    (hdirectory : ∀ {call cause}, call.Misread cause →
      Fails (.namespaceRefused cause) s (calls ++ [call])) :
    (orIfMissing (some <$> Check.query (.blockLocations path.text)) none : Check σ _).Conducts
      Permitted s calls Ends Fails := by
  refine lookup hq fun met _ => ?_
  have hlocations := Namespace.blockLocations_text met hv
  have hadds : met.node? path ≠ some .directory → Adds calls
      (calls ++ [⟨.blockLocations path.text, met⟩])
      (met.blockLocations path.text).toOption.toList [] := by
    intro hn
    apply Adds.call
    intro cause hmisread
    exact hn ((Call.misread_blockLocations hv).mp hmisread).1
  rw [Query.onNamespace, Namespace.run_look]
  rcases hn : met.node? path with _ | _ | content
  all_goals
    rw [hn] at hlocations hadds
    rw [hlocations] at hadds ⊢
  · exact hnone (hadds (by simp))
  · exact hdirectory (.directory hv hn)
  · exact hfile met content hn (hadds (by simp))

/-- The children of a directory, none if it is gone; a file in its place ends the step. -/
theorem children {path : Path} (hv : path.Valid) {Ends : List Entry → σ → List Call → Prop}
    (hq : Permitted calls (.listChildren path.text))
    (hdirectory : ∀ (met : Namespace) {after}, met.Valid →
      after = calls ++ [⟨.listChildren path.text, met⟩] → Adds calls after [] [] →
        Ends (met.childrenOf path) s after)
    (hnone : ∀ {after}, Adds calls after [] [] → Ends [] s after)
    (hfile : ∀ {call cause}, call.Misread cause →
      Fails (.namespaceRefused cause) s (calls ++ [call])) :
    (orIfMissing (Check.query (.listChildren path.text)) [] : Check σ _).Conducts
      Permitted s calls Ends Fails := by
  rw [← id_map (Check.query (.listChildren path.text))]
  refine lookup hq fun met hmet => ?_
  have hadds : (∀ content, met.node? path ≠ some (.file content)) → Adds calls
      (calls ++ [⟨.listChildren path.text, met⟩]) [] [] := by
    intro hn
    apply Adds.call
    intro cause hmisread
    obtain ⟨content, hcontent⟩ := ((Call.misread_listChildren hv).mp hmisread).1
    exact hn content hcontent
  rw [Query.onNamespace, Namespace.run_look, Namespace.listChildren_text met hv]
  rcases hn : met.node? path with _ | _ | content
  · exact hnone (hadds (by simp [hn]))
  · exact hdirectory met hmet rfl (hadds (by simp [hn]))
  · exact hfile (.file hv hn)

end Conducts

end Check

end BlockFsck
