/-
  FRESH REPLAYS: what a replay says right after the execution it replays.

  1. `settled_of_execute` — whatever an execution decides, it leaves the registry as it was, stores
     its receipt, and leaves an executor check that passes.

  2. `replay_after_execute` — so, on a local store in any state, the replay reports exactly the
     records the receipt names that are not stored as it names them.  A BLOCK receipt copies the
     requester's lease id, target id and target hash, so it may well name such records; an ALLOW
     receipt does not, when targets are filed under their own ids.
-/
import PoiexGoc.Proofs.AuditLedger
import PoiexGoc.Proofs.StandingReceipts

namespace PoiexGoc

open Py Effect

/-- What an execution that has returned leaves. -/
structure Settled (v v' : StoreView) (identity : IdentityContext) (leaseId : String)
    (receipt : ExecutionReceipt) : Prop where
  agent : v'.agent = v.agent
  lease : v'.lease = v.lease
  evidence : v'.evidence = v.evidence
  target : v'.target = v.target
  stored : v'.receipt receipt.receiptId = .ok (some receipt)
  agentId : receipt.agentId = identity.agentId
  leaseId : receipt.leaseId = some leaseId
  action : receipt.decision = "ALLOW" → ∃ resultHash,
    truthy receipt.executorResultHash = some resultHash ∧
    v'.action receipt.runId resultHash = .ok true

section Executions

variable [PyRuntime]

theorem settled_of_execute {σ : Type} {h : Handler RuntimeStore PyError σ} {view : σ → StoreView}
    (himp : Implements h view) {cp : ControlPlane} {fuel : Nat} {draw : Draw}
    {identity : IdentityContext} {leaseId : String} {intent : ActionIntent} {s s' : σ}
    {receipt : ExecutionReceipt}
    (hrun : (cp.execute fuel draw identity leaseId intent).run h s = (.ok receipt, s')) :
    Settled (view s) (view s') identity leaseId receipt := by
  rcases ControlPlane.execute_cases himp cp fuel draw identity leaseId intent s with ⟨e, hraise⟩ |
    ⟨report, -, -, hblock⟩ | ⟨report, target, resultHash, -, -, -, hhash, hdone⟩
  · cases hraise.symm.trans hrun
  · obtain ⟨hreceipt, hstate⟩ := Prod.mk.inj (hblock.symm.trans hrun)
    rw [← hstate, himp.view_putReceipt, ← Except.ok.inj hreceipt]
    exact {
      agent := rfl
      lease := rfl
      evidence := rfl
      target := rfl
      stored := StoreView.putReceipt_self _ _
      agentId := rfl
      leaseId := rfl
      action := fun hallow => absurd hallow (show "BLOCK" ≠ "ALLOW" by decide) }
  · obtain ⟨hreceipt, hstate⟩ := Prod.mk.inj (hdone.symm.trans hrun)
    rw [← hstate, himp.view_putReceipt, himp.view_executed hhash, ← Except.ok.inj hreceipt]
    exact {
      agent := rfl
      lease := rfl
      evidence := rfl
      target := rfl
      stored := StoreView.putReceipt_self _ _
      agentId := rfl
      leaseId := rfl
      action := fun _ => ⟨resultHash, truthy_some (canonicalHash_ne_empty hhash),
        StoreView.putAction_confirms _ _ _⟩ }

omit [PyRuntime] in
/-- Over a registry that decodes, its replay meets no exception. -/
theorem Settled.legible {v v' : StoreView} {identity : IdentityContext} {leaseId : String}
    {receipt : ExecutionReceipt} (hsettled : Settled v v' identity leaseId receipt)
    {provenanceIds : Finset String} (hdec : ControlPlane.RegistryDecodes v provenanceIds) :
    ControlPlane.Legible v' receipt where
  agent := by
    rw [hsettled.agent]
    exact hdec.agent _
  lease := by
    intro id _
    rw [hsettled.lease]
    exact hdec.lease id
  evidence := by
    intro id _
    rw [hsettled.evidence]
    exact hdec.evidence id
  target := by
    intro id _
    rw [hsettled.target]
    exact hdec.target id
  action := by
    intro hallow resultHash hhash
    obtain ⟨own, hown, hconfirmed⟩ := hsettled.action hallow
    rw [← Option.some.inj (hown.symm.trans hhash)]
    exact ⟨true, hconfirmed⟩

/-- The replay of a fresh ALLOW receipt has nothing to report: even its target is still stored with
    its hash. -/
theorem findings_of_allow {σ : Type} {h : Handler RuntimeStore PyError σ} {view : σ → StoreView}
    (himp : Implements h view) {cp : ControlPlane} {fuel : Nat} {draw : Draw}
    {identity : IdentityContext} {leaseId : String} {intent : ActionIntent} {s s' : σ}
    {receipt : ExecutionReceipt}
    (hrun : (cp.execute fuel draw identity leaseId intent).run h s = (.ok receipt, s'))
    (hallow : receipt.decision = "ALLOW") (hfiled : Filed (view s)) :
    ControlPlane.findings (view s') receipt = [] := by
  rw [findings_of_standing (held_of_execute himp hrun hallow).standing]
  obtain ⟨report, agent, evidenceId, evidence, lease, target, resultHash, hadmitted, -, hreceipt,
    hview⟩ := ControlPlane.execute_allow himp hrun hallow
  cases hid : truthy receipt.targetId with
  | none => exact ControlPlane.storedTargetFindings_of_none hid
  | some id =>
    have hname : target.targetId = id := by
      have hsome := (truthy_eq_some.mp hid).1
      rw [hreceipt] at hsome
      exact Option.some.inj hsome
    have hfound : (view s').target id = .ok (some target) := by
      rw [hview, ← hname, hfiled _ _ hadmitted.targeted]
      exact hadmitted.targeted
    rw [ControlPlane.storedTargetFindings_of_name hid hfound, hreceipt]
    exact reasonIf_eq_nil.mpr (not_not_intro rfl)

section Local

variable {s s' : MemoryStore} {receipt : ExecutionReceipt}

/-- The mismatches in terms of the maps of the store before the execution, part by part. -/
theorem findings_of_settled {identity : IdentityContext} {leaseId : String}
    (hsettled : Settled s.view s'.view identity leaseId receipt) :
    ControlPlane.findings s'.view receipt =
      reasonIf (identity.agentId ∉ s.agents) "MISSING_AGENT" ++
      reasonIf (leaseId ≠ "" ∧ leaseId ∉ s.leases) "MISSING_LEASE" ++
      receipt.registryEvidenceRefs.flatMap
        (fun id => reasonIf (id ∉ s.evidence) ("MISSING_EVIDENCE:" ++ id)) ++
      ((truthy receipt.targetId).elim []
        fun id => ControlPlane.targetFindings receipt (s.targets.lookup id)) := by
  have hagent : reasonIf (ControlPlane.stored (s'.view.agent receipt.agentId) = none)
      "MISSING_AGENT" = reasonIf (identity.agentId ∉ s.agents) "MISSING_AGENT" := by
    rw [hsettled.agent, hsettled.agentId]
    exact reasonIf_congr Finmap.lookup_eq_none _
  have hlease : ControlPlane.leaseFindings s'.view receipt =
      reasonIf (leaseId ≠ "" ∧ leaseId ∉ s.leases) "MISSING_LEASE" := by
    rw [ControlPlane.leaseFindings, hsettled.leaseId, hsettled.lease]
    by_cases hempty : leaseId = ""
    · rw [hempty]
      exact (reasonIf_eq_nil.mpr fun h => h.1 rfl).symm
    · rw [truthy_some hempty]
      refine reasonIf_congr ?_ _
      exact Finmap.lookup_eq_none.trans ⟨fun h => ⟨hempty, h⟩, fun h => h.2⟩
  have hevidence : ControlPlane.evidenceFindings s'.view receipt.registryEvidenceRefs =
      receipt.registryEvidenceRefs.flatMap
        (fun id => reasonIf (id ∉ s.evidence) ("MISSING_EVIDENCE:" ++ id)) := by
    rw [ControlPlane.evidenceFindings, hsettled.evidence]
    congr 1
    funext id
    exact reasonIf_congr Finmap.lookup_eq_none _
  have htarget : ControlPlane.storedTargetFindings s'.view receipt =
      (truthy receipt.targetId).elim []
        fun id => ControlPlane.targetFindings receipt (s.targets.lookup id) := by
    cases hid : truthy receipt.targetId with
    | none => exact ControlPlane.storedTargetFindings_of_none hid
    | some id =>
      refine ControlPlane.storedTargetFindings_of_name hid ?_
      rw [hsettled.target]
      rfl
  rw [ControlPlane.findings, hagent, hlease, hevidence, htarget,
    ControlPlane.executorFindings_eq_nil hsettled.action, List.append_nil]

end Local

/-- Replay of an untouched store.  In any state of a local store, the replay of a receipt that
    `execute` has just returned reports the records the receipt names that are missing, a target
    hash that is not the stored one, and nothing else; so it passes exactly when there are none.
    For an ALLOW receipt there are none, when targets are filed under their own ids. -/
theorem replay_after_execute (s s' : MemoryStore) (cp : ControlPlane) (fuel : Nat) (draw : Draw)
    (identity : IdentityContext) (leaseId : String) (intent : ActionIntent)
    (receipt : ExecutionReceipt)
    (hrun : (cp.execute fuel draw identity leaseId intent).run MemoryStore.handle s =
      (.ok receipt, s')) :
    ∃ manifest, (ControlPlane.replay receipt.receiptId).run MemoryStore.handle s' =
        (.ok manifest, s') ∧
      manifest.reconstructionStatus = (if manifest.mismatches = [] then "PASS" else "FAIL") ∧
      manifest.mismatches =
        reasonIf (identity.agentId ∉ s.agents) "MISSING_AGENT" ++
        reasonIf (leaseId ≠ "" ∧ leaseId ∉ s.leases) "MISSING_LEASE" ++
        receipt.registryEvidenceRefs.flatMap
          (fun id => reasonIf (id ∉ s.evidence) ("MISSING_EVIDENCE:" ++ id)) ++
        ((truthy receipt.targetId).elim []
          fun id => ControlPlane.targetFindings receipt (s.targets.lookup id)) ∧
      (receipt.decision = "ALLOW" →
        (∀ id target, s.targets.lookup id = some target → target.targetId = id) →
        manifest.mismatches = []) := by
  have hsettled := settled_of_execute memoryStore_implements hrun
  refine ⟨_, ControlPlane.replay_run memoryStore_implements hsettled.stored
    (hsettled.legible (memoryStore_registryDecodes s)), rfl, findings_of_settled hsettled, fun hallow hfiled => ?_⟩
  refine findings_of_allow memoryStore_implements hrun hallow fun id target htarget => ?_
  exact hfiled id target (Except.ok.inj htarget)

end Executions

open CloudDemo in
/-- The demo's intent with the hash of another version of the pump: the decision is BLOCK, and the
    target of the untouched store is reported as changed. -/
theorem stale_intent_does_not_replay :
    let s := (runCommands MemoryStore.handle 3 missionCalls {}).2
    let executed := (controlPlane.execute 3 missionDraw (identity "s1") "lease-001"
      { missionIntent with targetHash := "v2" }).run MemoryStore.handle s
    executed.1.map ExecutionReceipt.reasons = .ok ["TARGET_HASH_MISMATCH"] ∧
    ((ControlPlane.replay "rcpt-2").run MemoryStore.handle executed.2).1 =
      .ok ⟨"run-1", "rcpt-2", "FAIL", ["TARGET_HASH_CHANGED"], "trace-3"⟩ := by
  decide +kernel

open CloudDemo in
/-- The demo's ALLOW receipt replays at once. -/
theorem fresh_mission_receipt_replays :
    ∃ receipt s' manifest, (controlPlane.execute 3 missionDraw (identity "s1") "lease-001"
        missionIntent).run MemoryStore.handle
          (runCommands MemoryStore.handle 3 missionCalls {}).2 = (.ok receipt, s') ∧
      (ControlPlane.replay receipt.receiptId).run MemoryStore.handle s' = (.ok manifest, s') ∧
      manifest.reconstructionStatus = "PASS" := by
  obtain ⟨receipt, s', hrun, hallow, -, -⟩ := mission_execution
  obtain ⟨manifest, hreplay, hstatus, -, hnil⟩ := replay_after_execute
    (runCommands MemoryStore.handle 3 missionCalls {}).2 s' controlPlane 3 missionDraw
    (identity "s1") "lease-001" missionIntent receipt hrun
  have hfiled : Filed (MemoryStore.view (runCommands MemoryStore.handle 3 missionCalls {}).2) :=
    filed_run memoryStore_backs 3 missionCalls filed_empty
  rw [if_pos (hnil hallow fun id target h => hfiled id target (congrArg Except.ok h))] at hstatus
  exact ⟨receipt, s', manifest, hrun, hreplay, hstatus⟩

end PoiexGoc
