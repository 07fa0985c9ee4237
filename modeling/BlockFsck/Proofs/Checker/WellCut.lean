import BlockFsck.Proofs.Checker.Contested
import BlockFsck.Proofs.Namespace.Lengths

/-!
# Histories that keep the files cut

As long as nobody sets the length of a block, the files stay as if they had been cut at once, none
of them gets shorter by an append, and no check meets a file that it cannot judge, exactly if no
append takes bytes away from a last block that is not full.
-/

namespace BlockFsck

namespace Namespace

variable {ns : Namespace} {blockSize : Int} {history : List Operation}

/-- Some operation of the history takes bytes from a file when it is its turn. -/
def shrinksAlong (ns : Namespace) : List Operation → Bool
  | [] => false
  | op :: later => op.shrinks ns || (op.perform ns).2.shrinksAlong later

/-- All along the history the files are cut well, appends keep the lengths, and all that a check
reads can be judged, also after what the check itself has done. -/
structure StaysWellCut (start : Namespace) (history : List Operation) (blockSize : Int) : Prop where
  wellCut : ∀ past, past <+: history → ∀ path content,
    (start.after past).node? path = some (.file content) →
      ((start.after past).recordOf path content).IsWellCut blockSize
  grows : ∀ past text more nodes, past ++ [.append text more nodes] <+: history →
    (start.after past).KeepsLengths (start.after (past ++ [.append text more nodes]))
  judged : ∀ past, past <+: history → ∀ {α : Type} (check : Program Metadata α),
    ∀ record ∈ recordsOf
      (check.run (Shared.service fun _ => []).answer ⟨start.after past, []⟩).2.calls,
      ∀ openVisible, ∃ health, FileHealth.ofRecord record openVisible = .ok health

private theorem shrinksAlong_eq_true : ns.shrinksAlong history = true ↔
    ∃ past op, past ++ [op] <+: history ∧ op.shrinks (ns.after past) = true := by
  induction history generalizing ns with
  | nil => simp [shrinksAlong]
  | cons first later ih =>
    rw [shrinksAlong, Bool.or_eq_true, ih]
    constructor
    · rintro (hfirst | ⟨past, op, hp, hshrinks⟩)
      · exact ⟨[], first, by simp, hfirst⟩
      · exact ⟨first :: past, op, by simpa using hp, hshrinks⟩
    · rintro ⟨past, op, hp, hshrinks⟩
      cases past with
      | nil =>
        obtain rfl : op = first := by simpa using hp
        exact .inl hshrinks
      | cons other past =>
        rw [List.cons_append, List.cons_prefix_cons] at hp
        obtain ⟨rfl, hp⟩ := hp
        exact .inr ⟨past, op, hp, hshrinks⟩

private theorem shrinksAlong_mono {past : List Operation} (hp : past <+: history)
    (h : ns.shrinksAlong history = false) : ns.shrinksAlong past = false := by
  rw [← Bool.not_eq_true, shrinksAlong_eq_true] at h ⊢
  rintro ⟨before, op, hbefore, hop⟩
  exact h ⟨before, op, hbefore.trans hp, hop⟩

private theorem after_single_append (ns : Namespace) (text : String) (more : Int)
    (nodes : Option (List String)) : ns.after [.append text more nodes] =
      ((Namespace.append text more nodes).run ns).2 := by
  rw [Namespace.after, List.foldl_cons, List.foldl_nil, Operation.perform, Operation.action,
    run_answer]

private theorem HasCutLengths.after (h : ns.HasCutLengths blockSize) (hv : ns.Valid)
    (hset : ∀ id length, .setBlockLength id length ∉ history)
    (hkeeps : ns.shrinksAlong history = false) : (ns.after history).HasCutLengths blockSize := by
  induction history generalizing ns with
  | nil => exact h
  | cons op later ih =>
    rw [shrinksAlong, Bool.or_eq_false_iff] at hkeeps
    have hop : ∀ id length, op ≠ .setBlockLength id length :=
      fun id length he => hset id length (he ▸ List.mem_cons_self ..)
    exact ih (h.perform hv op hop hkeeps.1) (hv.perform op)
      (fun id length hmem => hset id length (List.mem_cons_of_mem _ hmem)) hkeeps.2

end Namespace

private theorem Program.met_of_query {α : Type} (Kept : Namespace → Prop)
    (hquery : ∀ {ns}, Kept ns → ∀ q, Kept ((Metadata.onNamespace.query q).run ns).2)
    (p : Program Metadata α) {ns : Namespace} {calls : List Call} (h : Kept ns)
    (hcalls : ∀ call ∈ calls, Kept call.met) :
    ∀ call ∈ (p.run (Shared.service fun _ => []).answer ⟨ns, calls⟩).2.calls, Kept call.met := by
  induction p generalizing ns calls with
  | done result => exact hcalls
  | ask question next ih =>
    cases question with
    | log r => exact ih () h hcalls
    | query q =>
      refine ih _ (hquery h q) fun call hmem => ?_
      rcases List.mem_append.mp hmem with hold | hnew
      · exact hcalls call hold
      · rw [List.mem_singleton.mp hnew]
        exact h

namespace Namespace

variable {ns : Namespace} {blockSize : Int} {history : List Operation}

private theorem HasCutLengths.judged (h : ns.HasCutLengths blockSize) (hv : ns.Valid) {α : Type}
    (check : Program Metadata α) {record : FileRecord}
    (hmem : record ∈ recordsOf
      (check.run (Shared.service fun _ => []).answer ⟨ns, []⟩).2.calls) (openVisible : Bool) :
    ∃ health, FileHealth.ofRecord record openVisible = .ok health := by
  obtain ⟨call, hcall, path, content, hn, -, rfl⟩ := exists_of_mem_recordsOf hmem
  have hmet : call.met.Valid ∧ call.met.HasCutLengths blockSize :=
    check.met_of_query (fun met => met.Valid ∧ met.HasCutLengths blockSize)
      (fun hkept q => ⟨hkept.1.query q, hkept.2.query hkept.1 q⟩) ⟨hv, h⟩ (by simp) call hcall
  exact (hmet.2.isWellCut hn).judged openVisible

/-- Where no length of a block is set, the files stay cut exactly if no append takes bytes away. -/
theorem staysWellCut_iff (hB : 1 ≤ blockSize) (defaultReplication : Int) (nodes : List String)
    (hset : ∀ id length, .setBlockLength id length ∉ history) :
    (Namespace.empty blockSize defaultReplication nodes).StaysWellCut history blockSize ↔
      (Namespace.empty blockSize defaultReplication nodes).shrinksAlong history = false := by
  have hv := fun past => (Valid.empty blockSize defaultReplication nodes).after past
  have hcut := HasCutLengths.empty hB defaultReplication nodes
  generalize Namespace.empty blockSize defaultReplication nodes = start at hv hcut ⊢
  constructor
  · intro hstays
    by_contra hshrinks
    obtain ⟨past, op, hp, hop⟩ := shrinksAlong_eq_true.mp (by simpa using hshrinks)
    cases op with
    | append text more nodes =>
      have hgrows := hstays.grows past text more nodes hp
      rw [after_append, after_single_append] at hgrows
      exact (hv past).not_keeps_of_shrinks hop hgrows
    | _ => cases hop
  · intro hkeeps
    have hcuts : ∀ past, past <+: history → (start.after past).HasCutLengths blockSize :=
      fun past hp => hcut.after (hv []) (fun id length hmem => hset id length (hp.subset hmem))
        (shrinksAlong_mono hp hkeeps)
    refine ⟨fun past hp path content hn => (hcuts past hp).isWellCut hn,
      fun past text more nodes hp => ?_, fun past hp {α} check record hmem =>
        (hcuts past hp).judged (hv past) check hmem⟩
    have hone : (Operation.append text more nodes).shrinks (start.after past) = false := by
      rw [← Bool.not_eq_true] at hkeeps ⊢
      exact fun hop => hkeeps (shrinksAlong_eq_true.mpr ⟨past, _, hp, hop⟩)
    rw [after_append, after_single_append]
    exact ((hcuts past ((List.prefix_append ..).trans hp)).append (hv past) hone).2

/-- Appends of a negative length to full blocks only. -/
def harmless : List Operation :=
  [.createFile "/a" 4 (some 1) (some ["n1"]) (some "w"), .append "/a" (-5) none,
    .append "/a" 3 none, .addReplica "blk_2" "n2", .rename "/a" "/b",
    .createFile "/c" (-3) none none none]

/-- Such a history keeps the files cut. -/
theorem staysWellCut_iff_of_harmless : (∀ id length, .setBlockLength id length ∉ harmless) ∧
    (Namespace.empty 4 1 ["n1", "n2"]).StaysWellCut harmless 4 := by
  have hset : ∀ id length, .setBlockLength id length ∉ harmless := by simp [harmless]
  exact ⟨hset, (staysWellCut_iff (by decide) 1 ["n1", "n2"] hset).mpr (by decide +kernel)⟩

/-- Five bytes are taken from a file of three. -/
def takingAway : List Operation :=
  [.createFile "/a" 3 (some 1) none (some "w"), .append "/a" (-5) none, .closeFile "/a"]

/-- The file that is left has a block of a negative length, which a check reports. -/
theorem takingAway_malformed : (∀ id length, .setBlockLength id length ∉ takingAway) ∧
    ¬ (Namespace.empty 4 1 ["n1"]).StaysWellCut takingAway 4 ∧
    ((Checker.run { path := "/", listCorrupt := true } 10).run Metadata.onNamespace.answer
      ((Namespace.empty 4 1 ["n1"]).after takingAway)).1 = .ok
        { status := .failure
          output := "/a: FAILURE malformed block metadata\n\n" ++
            "The filesystem check under path '/' ended in FAILURE\n" } := by
  refine ⟨by simp [takingAway], fun h => ?_, by decide +kernel⟩
  have hn : ((Namespace.empty 4 1 ["n1"]).after takingAway).node? ["a"] =
    some (.file { replication := 1, blocks := ["blk_1"] }) := by decide +kernel
  have hlengths : (((Namespace.empty 4 1 ["n1"]).after takingAway).recordOf ["a"]
    { replication := 1, blocks := ["blk_1"] }).blocks.map BlockRecord.length = [-2] := by
      decide +kernel
  have hcut := h.wellCut takingAway (List.prefix_refl _) ["a"] _ hn
  obtain ⟨block, hmem, hlength⟩ := List.mem_map.mp (hlengths ▸ List.mem_singleton_self (-2))
  have hbounded := hcut.bounded block hmem
  omega

end Namespace

end BlockFsck
