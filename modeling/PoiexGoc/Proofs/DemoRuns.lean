/-
  One DEMO REQUEST, from whatever the store held before.

  1. A proposal for another target is refused (`governProposal_rejects`); one for the trusted
     target is executed on the mission (`execute_of_mission`), and the receipt that was just stored
     replays without a mismatch (`reconstructable_of_mission`).

  2. `runDemoCase_verdict` — so, where its parameters can be hashed, the verdict is a function of the
     case, the action and the target (`verdictOf`).

  3. `sameLedger_of_seeding` — the seeding of a request touches no receipt and no action, on either
     backend.
-/
import PoiexGoc.Proofs.AuditLedger
import PoiexGoc.Proofs.DemoMission
import PoiexGoc.Proofs.DocumentFrames

namespace PoiexGoc

open Py Effect

namespace CloudDemo

/-- Receipts and actions are no part of a mission. -/
theorem Mission.putReceipt {now : DateTime} {v : StoreView} {foundAgent : AgentRecord}
    {foundLease : AuthorityLease} (hv : Mission v now foundAgent foundLease)
    (receipt : ExecutionReceipt) : Mission (v.putReceipt receipt) now foundAgent foundLease :=
  ⟨hv.agent, hv.lease, hv.root, hv.child, hv.evidence, hv.target⟩

theorem Mission.putAction {now : DateTime} {v : StoreView} {foundAgent : AgentRecord}
    {foundLease : AuthorityLease} (hv : Mission v now foundAgent foundLease)
    (runId resultHash : String) : Mission (v.putAction runId resultHash) now foundAgent foundLease :=
  ⟨hv.agent, hv.lease, hv.root, hv.child, hv.evidence, hv.target⟩

/-- The records a receipt of the demo refers to. -/
structure RefersToMission (receipt : ExecutionReceipt) (now : DateTime) (targetHash : String) :
    Prop where
  agentId : receipt.agentId = agent.agentId
  leaseId : receipt.leaseId = some (lease now).leaseId
  evidence : ∀ id ∈ receipt.registryEvidenceRefs, id = "ev-runtime-001"
  targetId : receipt.targetId = some CloudDemo.targetId
  targetHash : receipt.targetHash = some targetHash

/-- A receipt about the records of a mission can be reconstructed from it, up to its action. -/
theorem reconstructable_of_mission {now : DateTime} {v : StoreView} {foundAgent : AgentRecord}
    {foundLease : AuthorityLease} (hv : Mission v now foundAgent foundLease)
    {target : MaterialTarget} (htarget : v.target targetId = .ok (some target))
    {receipt : ExecutionReceipt} (hrefers : RefersToMission receipt now target.targetHash)
    (haction : receipt.decision = "ALLOW" → ∃ resultHash,
      truthy receipt.executorResultHash = some resultHash ∧
      v.action receipt.runId resultHash = .ok true) :
    ControlPlane.Reconstructable v receipt where
  agent := ⟨foundAgent, by rw [hrefers.agentId]; exact hv.agent⟩
  lease := by
    intro id hid
    rw [hrefers.leaseId] at hid
    rw [← Option.some.inj (truthy_eq_some.mp hid).1]
    exact ⟨foundLease, hv.lease⟩
  evidence := by
    intro id hid
    obtain ⟨e, hevidence, -⟩ := hv.evidence
    rw [hrefers.evidence id hid]
    exact ⟨e, hevidence⟩
  target := by
    intro id hid
    rw [hrefers.targetId] at hid
    rw [← Option.some.inj (truthy_eq_some.mp hid).1]
    exact ⟨target, htarget, hrefers.targetHash⟩
  action := haction

/-! ## The verdict of a request -/

/-- What a judge reads off a result. -/
structure Verdict where
  decision : String
  reasons : List String
  replay : String
  deriving DecidableEq

def DemoResult.verdict (result : DemoResult) : Verdict :=
  ⟨result.decision, result.reasons, result.replay⟩

/-- The verdict on a proposal: a function of the case, the action and the target it names. -/
def verdictOf (case actionType proposedTargetId : String) : Verdict :=
  if proposedTargetId ≠ targetId then
    ⟨"REJECTED_BEFORE_INTENT", ["planner proposal target does not match trusted target"],
      "NOT_CREATED"⟩
  else if demoReasons case actionType = [] then ⟨"ALLOW", ["ALL_MATERIAL_GATES_PASS"], "PASS"⟩
  else ⟨"BLOCK", demoReasons case actionType, "PASS"⟩

theorem verdictOf_allow {case actionType : String} (hnil : demoReasons case actionType = []) :
    verdictOf case actionType targetId = ⟨"ALLOW", ["ALL_MATERIAL_GATES_PASS"], "PASS"⟩ := by
  rw [verdictOf, if_neg (not_not_intro rfl), if_pos hnil]

theorem verdictOf_block {case actionType : String} (hne : demoReasons case actionType ≠ []) :
    verdictOf case actionType targetId = ⟨"BLOCK", demoReasons case actionType, "PASS"⟩ := by
  rw [verdictOf, if_neg (not_not_intro rfl), if_neg hne]

/-- A revoked lease, or one of another epoch, blocks every action. -/
theorem verdictOf_denied {case : String} (actionType : String)
    (hcase : case = "revoked_authority" ∨ case = "policy_epoch_stale") :
    verdictOf case actionType targetId = ⟨"BLOCK", demoReasons case actionType, "PASS"⟩ := by
  refine verdictOf_block ?_
  rcases hcase with rfl | rfl
  · exact List.ne_nil_of_mem (revoked_mem_demoReasons actionType)
  · exact List.ne_nil_of_mem (stale_mem_demoReasons actionType)

/-- The other two cases leave the decision to the action. -/
theorem verdictOf_open {case : String} (actionType : String)
    (hcase : case = "allow" ∨ case = "target_substitution") :
    (verdictOf case actionType targetId).decision =
      if actionType = action then "ALLOW" else "BLOCK" := by
  have hnil : demoReasons case actionType = [] ↔ actionType = action := by
    rw [demoReasons_eq_nil]
    refine ⟨fun h => h.1, fun h => ⟨h, ?_⟩⟩
    rcases hcase with rfl | rfl
    · decide
    · decide
  by_cases haction : actionType = action
  · rw [verdictOf_allow (hnil.mpr haction), if_pos haction]
  · rw [verdictOf_block (fun h => haction (hnil.mp h)), if_neg haction]

theorem verdictOf_replay (case actionType : String) :
    (verdictOf case actionType targetId).replay = "PASS" := by
  by_cases hnil : demoReasons case actionType = []
  · rw [verdictOf_allow hnil]
  · rw [verdictOf_block hnil]

/-- A proposal for the trusted target is decided by the gates. -/
theorem verdictOf_not_rejected (case actionType : String) :
    (verdictOf case actionType targetId).decision ≠ "REJECTED_BEFORE_INTENT" := by
  by_cases hnil : demoReasons case actionType = []
  · rw [verdictOf_allow hnil]
    decide
  · rw [verdictOf_block hnil]
    show "BLOCK" ≠ "REJECTED_BEFORE_INTENT"
    decide

variable [PyRuntime] {σ : Type} {h : Handler RuntimeStore PyError σ} {view : σ → StoreView}
  {now : DateTime} {scenarioId case : String}

/-! ## Executing and replaying a bound proposal -/

/-- The replay of the receipt passes and leaves the store alone. -/
def Replays (h : Handler RuntimeStore PyError σ) (receipt : ExecutionReceipt) (s : σ) : Prop :=
  ∃ manifest, (ControlPlane.replay receipt.receiptId).run h s = (.ok manifest, s) ∧
    manifest.reconstructionStatus = "PASS"

theorem replays_of_reconstructable (himp : Implements h view) {s : σ} {receipt : ExecutionReceipt}
    (hreceipt : (view s).receipt receipt.receiptId = .ok (some receipt))
    (hrec : ControlPlane.Reconstructable (view s) receipt) : Replays h receipt s := by
  refine ⟨⟨receipt.runId, receipt.receiptId, "PASS", [], receipt.traceId⟩, ?_, rfl⟩
  rw [himp.run_reads (ControlPlane.replay_issues _), ControlPlane.replay_eval_pass hreceipt hrec]

/-- A bound proposal on a mission: the decision follows from the reasons, and the receipt that was
    just stored replays. -/
theorem execute_of_mission (himp : Implements h view) {s : σ}
    (hs : Mission (view s) now (caseAgent case) (caseLease case now)) {fuel : Nat}
    (hfuel : 2 ≤ fuel) {target : MaterialTarget}
    (htarget : (view s).target targetId = .ok (some target))
    (htargetName : target.targetId = targetId) (hallowed : target.allowedActions = {action})
    (draw : Draw) (hnow : draw.now = now) (intent : ActionIntent)
    (hagentId : intent.agentId = agent.agentId) (htargetId : intent.targetId = targetId)
    (hhash : intent.targetHash = target.targetHash)
    (hpar : Serializable (.dict intent.parameters)) (scenarioId : String) :
    ∃ receipt s',
      (controlPlane.execute fuel draw (identity scenarioId) (lease now).leaseId intent).run h s =
        (.ok receipt, s') ∧ Replays h receipt s' ∧
      (demoReasons case intent.actionType = [] → receipt.decision = "ALLOW" ∧
        receipt.reasons = ["ALL_MATERIAL_GATES_PASS"]) ∧
      (demoReasons case intent.actionType ≠ [] → receipt.decision = "BLOCK" ∧
        receipt.reasons = demoReasons case intent.actionType) := by
  rw [ControlPlane.execute_run himp, hnow,
    gates_of_mission hs hfuel htarget hallowed hagentId htargetId hhash scenarioId]
  by_cases hnil : (demoReport case intent.actionType target).reasons = []
  · obtain ⟨resultHash, hresult⟩ :=
      ControlPlane.syntheticResult_isOk hpar draw.runId (identity scenarioId) target
    have hrun := ControlPlane.settle_run_allow himp rfl hnil draw (identity scenarioId)
      (lease now).leaseId intent s
    rw [hresult] at hrun
    refine ⟨_, _, hrun, ?_, fun _ => ⟨rfl, rfl⟩, fun hne => absurd hnil hne⟩
    apply replays_of_reconstructable himp
    · rw [himp.view_putReceipt]
      exact StoreView.putReceipt_self _ _
    · rw [himp.view_putReceipt, himp.view_executed hresult]
      -- the hash of the receipt is the hash of the action just stored
      refine reconstructable_of_mission ((hs.putAction _ _).putReceipt _) htarget
        ⟨rfl, rfl, fun _ => mem_demoReport_evidenceRefs case target, congrArg some htargetName, rfl⟩
        fun _ => ⟨resultHash, truthy_some (canonicalHash_ne_empty hresult), ?_⟩
      exact (view s).putAction_confirms draw.runId resultHash
  · have hrun := ControlPlane.settle_run_block himp (Or.inr hnil) draw (identity scenarioId)
      (lease now).leaseId intent s
    refine ⟨_, _, hrun, ?_, fun h => absurd h hnil, fun _ => ⟨rfl, rfl⟩⟩
    apply replays_of_reconstructable himp
    · rw [himp.view_putReceipt]
      exact StoreView.putReceipt_self _ _
    · rw [himp.view_putReceipt]
      exact reconstructable_of_mission (hs.putReceipt _) htarget
        ⟨rfl, rfl, fun _ => mem_demoReport_evidenceRefs case target, congrArg some htargetId,
          congrArg some hhash⟩
        fun hallow => absurd hallow (by decide : "BLOCK" ≠ "ALLOW")

/-! ## A whole request -/

/-- A proposal for another target is refused on any store that has the trusted one: nothing is
    written. -/
theorem governProposal_rejects (himp : Implements h view) {s : σ} {foundAgent : AgentRecord}
    {foundLease : AuthorityLease} (hs : Mission (view s) now foundAgent foundLease)
    {proposal : PlannerProposal} (htarget : proposal.targetId ≠ targetId) (fuel : Nat)
    (ids : FreshIds) (case scenarioId : String) :
    (governProposal fuel ids case scenarioId (context now scenarioId) proposal).run h s =
      (.ok (rejectedResult case scenarioId (context now scenarioId) proposal
        "planner proposal target does not match trusted target"), s) := by
  obtain ⟨target, hfound, hname, -⟩ := hs.target
  have hget : (store.getTarget targetId).run h s = (.ok (some target), s) := by
    rw [himp.run_read (show StoreOp.IsRead (.getTarget targetId) from trivial), ← hfound]
    rfl
  have hrefused : proposalToIntent proposal ("intent-" ++ scenarioId ++ "-" ++ case)
      (identity scenarioId).agentId target now =
      .error (.valueError "planner proposal target does not match trusted target") := by
    rw [proposalToIntent, hname]
    exact if_pos htarget
  have hexecute : (executeProposal controlPlane fuel (ids.drawAt now) (identity scenarioId)
      (lease now).leaseId proposal targetId ("intent-" ++ scenarioId ++ "-" ++ case) now).run h s =
      (.error (.valueError "planner proposal target does not match trusted target"), s) := by
    rw [executeProposal, Prog.run_bind_ok hget]
    -- the target check comes first: nothing is hashed and no further call is made
    show (store.lift (proposalToIntent _ _ _ _ _) >>= _).run h s = _
    rw [hrefused]
    rfl
  show (Prog.tryCatch (executeProposal controlPlane fuel (ids.drawAt now) (identity scenarioId)
    (lease now).leaseId proposal targetId _ now >>= _) _).run h s = _
  rw [Prog.run_tryCatch, Prog.run_bind_error hexecute]
  rfl

/-- A proposal for the trusted target is executed and replayed. -/
theorem governProposal_governs (himp : Implements h view) {s : σ}
    (hs : Mission (view s) now (caseAgent case) (caseLease case now)) {fuel : Nat}
    (hfuel : 2 ≤ fuel) {proposal : PlannerProposal} (htarget : proposal.targetId = targetId)
    (hpar : Serializable (.dict proposal.parameters)) (ids : FreshIds) (scenarioId : String) :
    ∃ result s', (governProposal fuel ids case scenarioId (context now scenarioId) proposal).run h
        s = (.ok result, s') ∧
      result.verdict = verdictOf case proposal.actionType proposal.targetId ∧
      result.receiptId ≠ none := by
  obtain ⟨target, hfound, hname, hallowed⟩ := hs.target
  have hget : (store.getTarget targetId).run h s = (.ok (some target), s) := by
    rw [himp.run_read (show StoreOp.IsRead (.getTarget targetId) from trivial), ← hfound]
    rfl
  obtain ⟨intentHash, hintent⟩ := ActionIntent.create_isOk hpar
    ("intent-" ++ scenarioId ++ "-" ++ case) (identity scenarioId).agentId proposal.actionType
    target.targetId target.targetHash now
  obtain ⟨receipt, s', hexecute, ⟨manifest, hreplay, hpass⟩, hallow, hblock⟩ :=
    execute_of_mission himp hs hfuel hfound hname hallowed (ids.drawAt now) rfl
      ⟨"intent-" ++ scenarioId ++ "-" ++ case, (identity scenarioId).agentId, proposal.actionType,
        target.targetId, target.targetHash, proposal.parameters, now, intentHash⟩
      rfl hname rfl hpar scenarioId
  have hbound : proposalToIntent proposal ("intent-" ++ scenarioId ++ "-" ++ case)
      (identity scenarioId).agentId target now =
      .ok ⟨"intent-" ++ scenarioId ++ "-" ++ case, (identity scenarioId).agentId,
        proposal.actionType, target.targetId, target.targetHash, proposal.parameters, now,
        intentHash⟩ := by
    rw [proposalToIntent, if_neg (not_not_intro (htarget.trans hname.symm)), hintent]
  have hproposal : (executeProposal controlPlane fuel (ids.drawAt now) (identity scenarioId)
      (lease now).leaseId proposal targetId ("intent-" ++ scenarioId ++ "-" ++ case) now).run h s =
      (.ok ⟨receipt, manifest⟩, s') := by
    rw [executeProposal, Prog.run_bind_ok hget]
    show (store.lift (proposalToIntent _ _ _ _ _) >>= _).run h s = _
    rw [hbound, Prog.done_ok_bind, Prog.run_bind_ok hexecute, Prog.run_bind_ok hreplay]
    rfl
  refine ⟨governedResult case scenarioId (context now scenarioId) proposal ⟨receipt, manifest⟩,
    s', ?_, ?_, Option.some_ne_none _⟩
  · show (Prog.tryCatch (executeProposal controlPlane fuel (ids.drawAt now)
      (identity scenarioId) (lease now).leaseId proposal targetId _ now >>= _) _).run h s = _
    rw [Prog.run_tryCatch, Prog.run_bind_ok hproposal]
    rfl
  · rw [verdictOf, if_neg (not_not_intro htarget)]
    show Verdict.mk receipt.decision receipt.reasons manifest.reconstructionStatus = _
    by_cases hnil : demoReasons case proposal.actionType = []
    · rw [if_pos hnil, (hallow hnil).1, (hallow hnil).2, hpass]
    · rw [if_neg hnil, (hblock hnil).1, (hblock hnil).2, hpass]

/-- A valid request returns the verdict of its case and proposal, whatever is stored. -/
theorem runDemoCase_verdict (himp : Implements h view) (hcase : case ∈ allowedCases)
    (hid : matchesScenario scenarioId = true) (now : DateTime) (ids : FreshIds) {fuel : Nat}
    (hfuel : 2 ≤ fuel) (proposal : Option PlannerProposal)
    (hpar : Serializable (.dict (effectiveProposal case scenarioId proposal).parameters)) (s : σ) :
    ∃ result s', (runDemoCase fuel ids case now scenarioId proposal).run h s = (.ok result, s') ∧
      result.verdict = verdictOf case (effectiveProposal case scenarioId proposal).actionType
        (effectiveProposal case scenarioId proposal).targetId := by
  obtain ⟨evidence, target, hseeds, heq⟩ := runDemoCase_eq hcase hid fuel ids now proposal
  obtain ⟨s₁, hprepare, hmission⟩ := prepare_run himp hseeds now scenarioId case s
  rw [heq, Prog.run_bind_ok hprepare]
  by_cases htarget : (effectiveProposal case scenarioId proposal).targetId = targetId
  · obtain ⟨result, s', hrun, hverdict, -⟩ :=
      governProposal_governs himp hmission hfuel htarget hpar ids scenarioId
    exact ⟨result, s', hrun, hverdict⟩
  · have hrun := governProposal_rejects himp hmission htarget fuel ids case scenarioId
    refine ⟨_, s₁, hrun, ?_⟩
    rw [verdictOf, if_pos htarget]
    rfl

end CloudDemo

/-! ## On either backend -/

/-- The two stores hold the same receipts and the same actions. -/
def Backend.SameLedger : Backend → Backend → Prop
  | .memory s, .memory s' => PoiexGoc.SameLedger s s'
  | .firestore fs c, .firestore fs' c' => fs' = fs ∧
    (∀ id, c'.docs.lookup (fs.docKey "receipts" id) = c.docs.lookup (fs.docKey "receipts" id)) ∧
    ∀ id, c'.docs.lookup (fs.docKey "synthetic_actions" id) =
      c.docs.lookup (fs.docKey "synthetic_actions" id)
  | _, _ => False

theorem Backend.SameLedger.refl (s : Backend) : s.SameLedger s := by
  cases s with
  | memory s => exact ⟨rfl, rfl, rfl⟩
  | firestore fs c => exact ⟨rfl, fun _ => rfl, fun _ => rfl⟩

namespace CloudDemo

variable [PyRuntime]

/-- The seeding stores neither a receipt nor an action. -/
theorem sameLedger_of_seeding {o : StoreOp} (ho : IsSeeding o) {s s' : Backend}
    (hsame : s.SameLedger s') : s.SameLedger (Backend.handle o s').2 := by
  rcases ho.read_or_put with hread | hput
  · rw [backend_implements.readsKeep o s' hread.isRead]
    exact hsame
  · cases s with
    | memory s =>
      cases s' with
      | memory s' =>
        cases o with
        | putAgent | putLease | putAuthorityProvenance | putEvidence | putTarget =>
          exact ⟨hsame.receipts, hsame.actions, hsame.count⟩
        | _ => exact hput.elim
      | firestore fs' c' => exact hsame.elim
    | firestore fs c =>
      cases s' with
      | memory s' => exact hsame.elim
      | firestore fs' c' =>
        obtain ⟨rfl, hreceipts, hactions⟩ := hsame
        have hkeep : ∀ kind id, kind ∉ registryKinds →
            (fs'.handle o c').2.docs.lookup (fs'.docKey kind id) =
              c'.docs.lookup (fs'.docKey kind id) := by
          intro kind id hkind
          have hne := ne_of_mem_registryKinds hput.docName_mem hkind
          exact fs'.lookup_handle_of_ne (fs'.docKey_ne_of_kind hne _ _) c'
        exact ⟨rfl, fun id => (hkeep "receipts" id (by decide)).trans (hreceipts id),
          fun id => (hkeep "synthetic_actions" id (by decide)).trans (hactions id)⟩

end CloudDemo

end PoiexGoc
