/-
  STANDING RECEIPTS: what a replay of an ALLOW receipt needs, and what keeps it.

  1. `Standing` — the agent, the lease and the evidence the receipt cites are stored, and its action
     is confirmed.  An execution that returns ALLOW leaves its receipt stored and standing
     (`held_of_execute`).

  2. `held_run` — every later call keeps it so, unless it overwrites this receipt or the action of
     this run: a put replaces a record, and never removes one.

  3. `findings_of_standing` — the replay of a standing receipt is left with the target check.

  4. `allowed_actions_stay_replayable` — in a local store the target is still there as well, so the
     replay depends on its hash alone.
-/
import PoiexGoc.Proofs.Admissions
import PoiexGoc.Proofs.ReplayReports
import PoiexGoc.Proofs.StoreRefinement
import PoiexGoc.Runtime.CloudDemo
import PoiexGoc.Runtime.Commands

namespace PoiexGoc

open Py Effect

/-- Everything but the target that a replay of an ALLOW receipt looks for is stored. -/
structure Standing (v : StoreView) (receipt : ExecutionReceipt) : Prop where
  agent : ∃ a, v.agent receipt.agentId = .ok (some a)
  lease : ∀ id, receipt.leaseId = some id → ∃ l, v.lease id = .ok (some l)
  evidence : ∀ id ∈ receipt.registryEvidenceRefs, ∃ e, v.evidence id = .ok (some e)
  action : ∃ resultHash, truthy receipt.executorResultHash = some resultHash ∧
    v.action receipt.runId resultHash = .ok true

/-- The receipt is stored under its id, and stands. -/
structure Held (v : StoreView) (receipt : ExecutionReceipt) : Prop where
  stored : v.receipt receipt.receiptId = .ok (some receipt)
  standing : Standing v receipt

/-- The operation overwrites neither the receipt nor the action of its run. -/
def StoreOp.Spares (receipt : ExecutionReceipt) : StoreOp → Prop
  | .putReceipt other => other.receiptId ≠ receipt.receiptId
  | .executeSyntheticAction runId _ => runId ≠ receipt.runId
  | _ => True

section Steps

variable [PyRuntime] {σ : Type} {h : Handler RuntimeStore PyError σ} {view : σ → StoreView}
  {receipt : ExecutionReceipt}

omit [PyRuntime] in
/-- The action of another run changes nothing about this one. -/
theorem Standing.putAction {v : StoreView} (hstanding : Standing v receipt)
    {runId resultHash : String} (hne : runId ≠ receipt.runId) :
    Standing (v.putAction runId resultHash) receipt where
  agent := hstanding.agent
  lease := hstanding.lease
  evidence := hstanding.evidence
  action := by
    obtain ⟨own, hown, hconfirmed⟩ := hstanding.action
    refine ⟨own, hown, ?_⟩
    show Function.update v.action runId _ receipt.runId own = _
    rw [Function.update_of_ne (Ne.symm hne)]
    exact hconfirmed

/-- A put can only replace records. -/
theorem Standing.transition {v v' : StoreView} (hstanding : Standing v receipt) {o : StoreOp}
    (hstep : Transition v o v')
    (ho : ∀ payload, o ≠ .executeSyntheticAction receipt.runId payload) : Standing v' receipt := by
  obtain ⟨hagent, hlease, hevidence, haction⟩ := hstanding
  cases hstep with
  | putAgent agent => exact ⟨StoreView.exists_after_put hagent _ _, hlease, hevidence, haction⟩
  | putLease lease =>
    exact ⟨hagent, fun id hid => StoreView.exists_after_put (hlease id hid) _ _, hevidence, haction⟩
  | putEvidence evidence =>
    exact ⟨hagent, hlease, fun id hid => StoreView.exists_after_put (hevidence id hid) _ _, haction⟩
  | putAction runId payload =>
    have hne : runId ≠ receipt.runId := by
      rintro rfl
      exact ho payload rfl
    exact Standing.putAction ⟨hagent, hlease, hevidence, haction⟩ hne
  | putProvenance | putTarget | putReceipt | keep => exact ⟨hagent, hlease, hevidence, haction⟩

/-- Only a put of a receipt changes what is stored as one. -/
theorem Transition.receipt_eq {v v' : StoreView} {o : StoreOp} (hstep : Transition v o v')
    {id : String}
    (ho : ∀ other : ExecutionReceipt, o = .putReceipt other → other.receiptId ≠ id) :
    v'.receipt id = v.receipt id := by
  cases hstep with
  | putReceipt other => exact Function.update_of_ne (Ne.symm (ho other rfl)) _ _
  | _ => rfl

theorem held_step (hback : Backs h view) {o : StoreOp} (ho : o.Spares receipt) {s : σ}
    (hheld : Held (view s) receipt) : Held (view (h o s).2) receipt where
  stored := by
    rw [(hback.transition o s).receipt_eq]
    · exact hheld.stored
    · rintro other rfl
      exact ho
  standing := by
    refine hheld.standing.transition (hback.transition o s) ?_
    rintro payload rfl
    exact ho rfl

theorem held_program (hback : Backs h view) {α : Type} {p : StoreM α}
    (hp : p.Issues (StoreOp.Spares receipt)) {s : σ} (hheld : Held (view s) receipt) :
    Held (view (p.run h s).2) receipt :=
  Prog.run_invariant (I := fun s => Held (view s) receipt)
    (fun _ _ ho hs => held_step hback ho hs) hp hheld

/-- The call overwrites neither the receipt nor the action of its run: its own ids are other
    ones. -/
def Command.Spares (receipt : ExecutionReceipt) : Command → Prop
  | .operation o => o.Spares receipt
  | .execute _ draw _ _ _ => draw.receiptId ≠ receipt.receiptId ∧ draw.runId ≠ receipt.runId
  | _ => True

omit [PyRuntime] in
theorem Command.program_spares {cmd : Command} (fuel : Nat) (hcmd : cmd.Spares receipt) :
    (cmd.program fuel).Issues (StoreOp.Spares receipt) := by
  cases cmd with
  | operation o => exact store.call_issues o hcmd
  | promote agentId capability evidenceId =>
    refine (ControlPlane.promote_issues agentId capability evidenceId).mono ?_
    rintro o (rfl | rfl | ⟨agent, rfl⟩)
    · trivial
    · trivial
    · trivial
  | execute cp draw identity leaseId intent =>
    refine (cp.execute_issues fuel draw identity leaseId intent).mono fun o ho => ?_
    cases o with
    | putReceipt other =>
      intro heq
      exact hcmd.1 (ho.1.symm.trans heq)
    | executeSyntheticAction runId payload =>
      intro heq
      exact hcmd.2 (ho.symm.trans heq)
    | getAgent | getLease | getAuthorityProvenance | getEvidence | getTarget => trivial
    | _ => exact ho.elim
  | replay receiptId =>
    refine (ControlPlane.replay_issues receiptId).mono fun o ho => ?_
    cases o with
    | getAgent | getLease | getAuthorityProvenance | getEvidence | getTarget | getReceipt
    | hasSyntheticAction => trivial
    | _ => exact ho.elim

/-- A later run keeps the receipt standing. -/
theorem held_run (hback : Backs h view) (fuel : Nat) {cmds : List Command}
    (hcmds : ∀ cmd ∈ cmds, cmd.Spares receipt) {s : σ} (hheld : Held (view s) receipt) :
    Held (view (runCommands h fuel cmds s).2) receipt := by
  refine runCommands_invariant (I := fun s => Held (view s) receipt) ?_
    (runMeets_of_forall hcmds s) hheld
  intro cmd s hcmd hs
  exact held_program hback (cmd.program_spares fuel hcmd) hs

/-- An allowed execution leaves its receipt stored and standing. -/
theorem held_of_execute (himp : Implements h view) {cp : ControlPlane} {fuel : Nat} {draw : Draw}
    {identity : IdentityContext} {leaseId : String} {intent : ActionIntent} {s s' : σ}
    (hrun : (cp.execute fuel draw identity leaseId intent).run h s = (.ok receipt, s'))
    (hallow : receipt.decision = "ALLOW") : Held (view s') receipt := by
  obtain ⟨report, agent, evidenceId, evidence, lease, target, resultHash, hadmitted, hhash, hreceipt,
    hview⟩ := ControlPlane.execute_allow himp hrun hallow
  rw [hview]
  refine ⟨StoreView.putReceipt_self _ _, ?_⟩
  rw [hreceipt]
  exact {
    agent := ⟨agent, hadmitted.registered⟩
    lease := by
      intro id hid
      rw [← Option.some.inj hid]
      exact ⟨lease, hadmitted.leased⟩
    evidence := by
      intro id hid
      have hcited : id ∈ [evidenceId] := hadmitted.cited ▸ hid
      rw [List.mem_singleton.mp hcited]
      exact ⟨evidence, hadmitted.evidenced⟩
    action := ⟨resultHash, truthy_some (canonicalHash_ne_empty hhash),
      StoreView.putAction_confirms _ _ _⟩ }

end Steps

/-! ## What the replay of a standing receipt says -/

section Replays

variable {v : StoreView} {receipt : ExecutionReceipt}

theorem Standing.legible (hstanding : Standing v receipt)
    (htarget : ∀ id, truthy receipt.targetId = some id → ∃ found, v.target id = .ok found) :
    ControlPlane.Legible v receipt where
  agent := by
    obtain ⟨a, ha⟩ := hstanding.agent
    exact ⟨some a, ha⟩
  lease := by
    intro id hid
    obtain ⟨l, hl⟩ := hstanding.lease id (truthy_eq_some.mp hid).1
    exact ⟨some l, hl⟩
  evidence := by
    intro id hid
    obtain ⟨e, he⟩ := hstanding.evidence id hid
    exact ⟨some e, he⟩
  target := htarget
  action := by
    intro _ resultHash hhash
    obtain ⟨own, hown, hconfirmed⟩ := hstanding.action
    rw [hown] at hhash
    rw [← Option.some.inj hhash]
    exact ⟨true, hconfirmed⟩

/-- Only the target check is left. -/
theorem findings_of_standing (hstanding : Standing v receipt) :
    ControlPlane.findings v receipt = ControlPlane.storedTargetFindings v receipt := by
  have hlease := ControlPlane.leaseFindings_eq_nil (v := v) fun id hid =>
    hstanding.lease id (truthy_eq_some.mp hid).1
  have hexecutor := ControlPlane.executorFindings_eq_nil fun _ => hstanding.action
  obtain ⟨a, ha⟩ := hstanding.agent
  rw [ControlPlane.findings, hlease, ControlPlane.evidenceFindings_eq_nil hstanding.evidence,
    hexecutor, ha, List.append_nil]
  rfl

end Replays

/-! ## Targets are filed under their own ids -/

/-- A target that is found carries the id it is found under. -/
def Filed (v : StoreView) : Prop :=
  ∀ id target, v.target id = .ok (some target) → target.targetId = id

section Filing

variable [PyRuntime] {σ : Type} {h : Handler RuntimeStore PyError σ} {view : σ → StoreView}

theorem Filed.transition {v v' : StoreView} (hfiled : Filed v) {o : StoreOp}
    (hstep : Transition v o v') : Filed v' := by
  cases hstep with
  | putTarget target hanswer =>
    rename_i answer
    intro id found hfound
    replace hfound : Function.update v.target target.targetId answer id = .ok (some found) :=
      hfound
    by_cases hid : id = target.targetId
    · rw [hid, Function.update_self] at hfound
      rw [Option.some.inj (hanswer _ hfound), hid]
    · rw [Function.update_of_ne hid] at hfound
      exact hfiled id found hfound
  | _ => exact hfiled

/-- Any run of calls keeps targets filed. -/
theorem filed_run (hback : Backs h view) (fuel : Nat) (cmds : List Command) {s : σ}
    (hfiled : Filed (view s)) : Filed (view (runCommands h fuel cmds s).2) :=
  runCommands_keeps (I := fun s => Filed (view s)) (fun o s hs => hs.transition (hback.transition o s))
    fuel cmds hfiled

omit [PyRuntime] in
theorem filed_empty : Filed StoreView.empty := by
  intro id target htarget
  cases Except.ok.inj htarget

end Filing

/-! ## Later replays in a local store -/

section Local

variable [PyRuntime]

/-- A local store never loses a target. -/
theorem memory_target_run (fuel : Nat) (cmds : List Command) {s : MemoryStore} {id : String}
    (hid : id ∈ s.targets) : id ∈ (runCommands MemoryStore.handle fuel cmds s).2.targets := by
  refine runCommands_keeps (I := fun s : MemoryStore => id ∈ s.targets) ?_ fuel cmds hid
  intro o s hs
  cases o with
  | putTarget target => exact Finmap.mem_insert.mpr (Or.inr hs)
  | executeSyntheticAction runId payload =>
    simp only [MemoryStore.handle, MemoryStore.executeSyntheticAction]
    cases canonicalHash (syntheticResult runId payload) with
    | error e => exact hs
    | ok resultHash => exact hs
  | _ => exact hs

/-- Allowed actions stay replayable.  After any run from the empty store, let an execution return
    an ALLOW receipt with a target id, and let any calls follow that do not reuse its ids.  Then the
    target is still stored, and a replay passes exactly when its hash is the receipt's; otherwise
    the changed hash is the one mismatch. -/
theorem allowed_actions_stay_replayable (fuel : Nat) (before later : List Command)
    (cp : ControlPlane) (draw : Draw) (identity : IdentityContext) (leaseId : String)
    (intent : ActionIntent) (receipt : ExecutionReceipt) (s : MemoryStore)
    (hrun : (cp.execute fuel draw identity leaseId intent).run MemoryStore.handle
      (runCommands MemoryStore.handle fuel before {}).2 = (.ok receipt, s))
    (hallow : receipt.decision = "ALLOW") (targetId : String)
    (htargetId : receipt.targetId = some targetId) (hne : targetId ≠ "")
    (hlater : ∀ cmd ∈ later, cmd.Spares receipt) :
    let s' := (runCommands MemoryStore.handle fuel later s).2
    ∃ target, s'.targets.lookup targetId = some target ∧
      (ControlPlane.replay receipt.receiptId).run MemoryStore.handle s' =
        (.ok { runId := receipt.runId
               receiptId := receipt.receiptId
               reconstructionStatus :=
                 if receipt.targetHash = some target.targetHash then "PASS" else "FAIL"
               mismatches :=
                 if receipt.targetHash = some target.targetHash then [] else ["TARGET_HASH_CHANGED"]
               traceId := receipt.traceId }, s') := by
  intro s'
  have hheld : Held (MemoryStore.view s') receipt :=
    held_run memoryStore_backs fuel hlater (held_of_execute memoryStore_implements hrun hallow)
  -- the target the receipt names is the one that was stored under that id
  have hstored : targetId ∈ s.targets := by
    obtain ⟨report, agent, evidenceId, evidence, lease, target, resultHash, hadmitted, -, hreceipt,
      hview⟩ := ControlPlane.execute_allow memoryStore_implements hrun hallow
    have hfiled : Filed (MemoryStore.view (runCommands MemoryStore.handle fuel before {}).2) :=
      filed_run memoryStore_backs fuel before filed_empty
    have hname : target.targetId = targetId := by
      rw [hreceipt] at htargetId
      exact Option.some.inj htargetId
    have hlookup : (MemoryStore.view s).target targetId = .ok (some target) := by
      rw [hview, ← hname, hfiled _ _ hadmitted.targeted]
      exact hadmitted.targeted
    exact Finmap.mem_of_lookup_eq_some (Except.ok.inj hlookup)
  obtain ⟨target, htarget⟩ := Finmap.mem_iff.mp (memory_target_run fuel later hstored)
  have hnamed : truthy receipt.targetId = some targetId := by
    rw [htargetId, truthy_some hne]
  have hlegible := hheld.standing.legible fun id _ => ⟨_, rfl⟩
  have hfindings : ControlPlane.findings (MemoryStore.view s') receipt =
      if receipt.targetHash = some target.targetHash then [] else ["TARGET_HASH_CHANGED"] := by
    rw [findings_of_standing hheld.standing,
      ControlPlane.storedTargetFindings_of_name hnamed (congrArg Except.ok htarget)]
    exact ite_not _ _ _
  refine ⟨target, htarget, ?_⟩
  rw [ControlPlane.replay_run memoryStore_implements hheld.stored hlegible, hfindings]
  by_cases hsame : receipt.targetHash = some target.targetHash
  · rw [if_pos hsame, if_pos hsame]
    rfl
  · rw [if_neg hsame, if_neg hsame]
    rfl

end Local

/-! ## The demo mission as calls -/

namespace CloudDemo

def missionTime : DateTime := ⟨1787838300000000, 0⟩

def missionEvidence : EvidenceItem :=
  { evidenceId := "ev-runtime-001", subjectId := agent.agentId, claim := action
    sourceType := .runtimeObservation, observedAt := missionTime
    payloadHash := "de86a14317645e8fe72bab5b1598307f3371d713f2aa0f4abf8e826075aad635"
    traceId := "trace-observed-s1" }

def missionTarget : MaterialTarget :=
  { targetId, targetType := "synthetic_equipment", canonicalRef := "plant-demo/pump-A", version := 3
    allowedActions := {action}
    targetHash := "4cfbd96418f23a1a2237794cb05f31e0d162e8abad0cf2b9f10e2db7830c176f" }

/-- The records of the demo, put one by one, and the promotion of its capability. -/
def missionCalls : List Command :=
  [.operation (.putAgent agent), .operation (.putEvidence missionEvidence),
   .promote agent.agentId action missionEvidence.evidenceId,
   .operation (.putTarget missionTarget),
   .operation (.putAuthorityProvenance (provenanceRoot missionTime)),
   .operation (.putAuthorityProvenance (provenanceChild missionTime)),
   .operation (.putLease (lease missionTime))]

def missionDraw : Draw := ⟨missionTime, missionTime, "1", "2", "3"⟩

def missionIntent : ActionIntent :=
  { intentId := "intent-s1", agentId := agent.agentId, actionType := action, targetId
    targetHash := missionTarget.targetHash, parameters := [("work_order", .str "WO-1")]
    requestedAt := missionTime, intentHash := "" }

/-- The receipt of the demo's execution. -/
def missionReceipt : ExecutionReceipt :=
  { receiptId := "rcpt-2", runId := "run-1", agentId := agent.agentId, sessionId := "session-s1"
    leaseId := some "lease-001", registryEvidenceRefs := [missionEvidence.evidenceId]
    targetId := some targetId, targetHash := some missionTarget.targetHash
    intentId := "intent-s1", intentHash := ""
    executorResultHash := some "4ed47cfd04ec6b247a2612ff6c6a289c94a8ea56394fc396c8a9b261d5d3d00e"
    decision := "ALLOW", reasons := ["ALL_MATERIAL_GATES_PASS"], createdAt := missionTime
    traceId := "trace-3" }

/-- The demo's execution, as a call. -/
def missionExecution : Command :=
  .execute controlPlane missionDraw (identity "s1") "lease-001" missionIntent

/-- The execution of the mission on a local store is allowed, about the mission's target. -/
theorem mission_execution :
    ∃ receipt s, (controlPlane.execute 3 missionDraw (identity "s1") "lease-001" missionIntent).run
        MemoryStore.handle (runCommands MemoryStore.handle 3 missionCalls {}).2 = (.ok receipt, s) ∧
      receipt.decision = "ALLOW" ∧ receipt.targetId = some targetId ∧
      receipt.targetHash = some missionTarget.targetHash := by
  have hdecision : ((controlPlane.execute 3 missionDraw (identity "s1") "lease-001"
      missionIntent).run MemoryStore.handle
        (runCommands MemoryStore.handle 3 missionCalls {}).2).1.map
          (fun r => (r.decision, r.targetId, r.targetHash)) =
        .ok ("ALLOW", some targetId, some missionTarget.targetHash) := by decide +kernel
  obtain ⟨receipt, hreceipt, hfields⟩ := map_eq_ok hdecision
  obtain ⟨hallow, hfields⟩ := Prod.mk.inj hfields
  obtain ⟨htargetId, hhash⟩ := Prod.mk.inj hfields
  exact ⟨receipt, _, Prod.ext hreceipt rfl, hallow, htargetId, hhash⟩

end CloudDemo

open CloudDemo in
/-- A new version of the pump makes the replay of the demo's ALLOW receipt fail. -/
theorem replay_after_target_upgrade :
    ∃ receipt s manifest,
      (controlPlane.execute 3 missionDraw (identity "s1") "lease-001" missionIntent).run
        MemoryStore.handle (runCommands MemoryStore.handle 3 missionCalls {}).2 = (.ok receipt, s) ∧
      ((ControlPlane.replay receipt.receiptId).run MemoryStore.handle
        (runCommands MemoryStore.handle 3
          [.operation (.putTarget { missionTarget with version := 4, targetHash := "v4" })]
            s).2).1 = .ok manifest ∧
      manifest.mismatches = ["TARGET_HASH_CHANGED"] := by
  obtain ⟨receipt, s, hrun, hallow, htargetId, hhash⟩ := mission_execution
  obtain ⟨target, htarget, hreplay⟩ := allowed_actions_stay_replayable 3 missionCalls
    [.operation (.putTarget { missionTarget with version := 4, targetHash := "v4" })] controlPlane
    missionDraw (identity "s1") "lease-001" missionIntent receipt s hrun hallow targetId htargetId
    (by decide) (by
      intro cmd hcmd
      rw [List.mem_singleton.mp hcmd]
      trivial)
  refine ⟨receipt, s, _, hrun, congrArg Prod.fst hreplay, ?_⟩
  have hnew : target.targetHash = "v4" := by
    have hput : some { missionTarget with version := 4, targetHash := "v4" } = some target :=
      (Finmap.lookup_insert _).symm.trans htarget
    rw [← Option.some.inj hput]
  show (if receipt.targetHash = some target.targetHash then [] else ["TARGET_HASH_CHANGED"]) = _
  rw [hhash, hnew]
  decide

end PoiexGoc
