/-
  PLANNER CONTENT: two proposals for the same action on the same target are decided alike.

  A two-run relation, followed through the call.  `AsksAs` relates the two intents: they differ in
  their ids, parameters, times and hashes.

  1. `gates_of_asksAs` — the gates are the same program for both.

  2. `execute_alike` — so the two executions raise the same exception, or return receipts with one
     verdict (`SameVerdict`) over registries that are still the same.  The executor hashes different
     payloads here; both have a hash.

  3. `mismatches_alike` — the two replays ask for the same registry records; the executor's part is
     about different hashes, and finds each of them.
-/
import PoiexGoc.Proofs.ProposalAtomicity
import PoiexGoc.Proofs.StandingReceipts

namespace PoiexGoc

open Py Effect

/-- The two intents ask for the same action of the same agent on the same target. -/
structure ActionIntent.AsksAs (intent intent' : ActionIntent) : Prop where
  agentId : intent'.agentId = intent.agentId
  actionType : intent'.actionType = intent.actionType
  targetId : intent'.targetId = intent.targetId
  targetHash : intent'.targetHash = intent.targetHash

/-- The two receipts decide alike, on the same evidence and about the same target. -/
structure ExecutionReceipt.SameVerdict (receipt receipt' : ExecutionReceipt) : Prop where
  decision : receipt'.decision = receipt.decision
  reasons : receipt'.reasons = receipt.reasons
  evidenceRefs : receipt'.registryEvidenceRefs = receipt.registryEvidenceRefs
  targetId : receipt'.targetId = receipt.targetId
  targetHash : receipt'.targetHash = receipt.targetHash

/-- What an outcome says to its caller about the request. -/
def GovernedOutcome.verdict (outcome : GovernedOutcome) :
    String × List String × List String × String × List String :=
  (outcome.receipt.decision, outcome.receipt.reasons, outcome.receipt.registryEvidenceRefs,
    outcome.replay.reconstructionStatus, outcome.replay.mismatches)

/-- The gates read nothing of an intent but what it asks for. -/
theorem gates_of_asksAs {intent intent' : ActionIntent} (hasks : intent.AsksAs intent')
    (cp : ControlPlane) (fuel : Nat) (now : DateTime) (identity : IdentityContext)
    (leaseId : String) :
    ControlPlane.gates cp fuel now identity leaseId intent' =
      ControlPlane.gates cp fuel now identity leaseId intent := by
  obtain ⟨intentId, agentId, actionType, targetId, targetHash, parameters, requestedAt, hash⟩ := intent
  obtain ⟨intentId', agentId', actionType', targetId', targetHash', parameters', requestedAt',
    hash'⟩ := intent'
  obtain ⟨rfl, rfl, rfl, rfl⟩ := hasks
  rfl

section Runs

variable [PyRuntime] {σ : Type} {h : Handler RuntimeStore PyError σ} {view : σ → StoreView}

/-- The two executions raise alike, or return receipts with one verdict. -/
theorem execute_alike (himp : Implements h view) {intent intent' : ActionIntent}
    (hasks : intent.AsksAs intent') (hpar : Serializable (.dict intent.parameters))
    (hpar' : Serializable (.dict intent'.parameters)) {draw draw' : Draw}
    (hnow : draw'.now = draw.now) (cp : ControlPlane) (fuel : Nat) (identity : IdentityContext)
    (leaseId : String) (s : σ) :
    (∃ e, (cp.execute fuel draw identity leaseId intent).run h s = (.error e, s) ∧
      (cp.execute fuel draw' identity leaseId intent').run h s = (.error e, s)) ∨
    ∃ receipt s₁ receipt' s₁',
      (cp.execute fuel draw identity leaseId intent).run h s = (.ok receipt, s₁) ∧
      (cp.execute fuel draw' identity leaseId intent').run h s = (.ok receipt', s₁') ∧
      receipt.SameVerdict receipt' := by
  rw [ControlPlane.execute_run himp, ControlPlane.execute_run himp, hnow, gates_of_asksAs hasks]
  cases (ControlPlane.gates cp fuel draw.now identity leaseId intent).eval (view s).answers with
  | error e => exact Or.inl ⟨e, rfl, rfl⟩
  | ok report =>
    refine Or.inr ?_
    by_cases hblock : report.target = none ∨ report.reasons ≠ []
    · refine ⟨_, _, _, _, ControlPlane.settle_run_block himp hblock draw identity leaseId intent s,
        ControlPlane.settle_run_block himp hblock draw' identity leaseId intent' s, ?_⟩
      exact ⟨rfl, rfl, rfl, congrArg some hasks.targetId, congrArg some hasks.targetHash⟩
    · rw [not_or, not_not] at hblock
      obtain ⟨target, htarget⟩ := Option.ne_none_iff_exists'.mp hblock.1
      -- the payloads differ in their parameters, so the two hashes are different ones
      obtain ⟨resultHash, hhash⟩ := ControlPlane.syntheticResult_isOk hpar draw.runId identity target
      obtain ⟨resultHash', hhash'⟩ :=
        ControlPlane.syntheticResult_isOk hpar' draw'.runId identity target
      have hrun := ControlPlane.settle_run_allow himp htarget hblock.2 draw identity leaseId intent s
      have hrun' := ControlPlane.settle_run_allow himp htarget hblock.2 draw' identity leaseId
        intent' s
      rw [hhash] at hrun
      rw [hhash'] at hrun'
      exact ⟨_, _, _, _, hrun, hrun', ⟨rfl, rfl, rfl, rfl, rfl⟩⟩

/-! ## The two replays -/

section Replays

variable {v v₁ v₂ : StoreView} {receipt receipt' : ExecutionReceipt}

theorem leaseMismatches_alike (hlease : v₂.lease = v₁.lease)
    (hid : receipt'.leaseId = receipt.leaseId) :
    (ControlPlane.leaseMismatches receipt').eval v₂.answers =
      (ControlPlane.leaseMismatches receipt).eval v₁.answers := by
  unfold ControlPlane.leaseMismatches
  rw [hid]
  cases truthy receipt.leaseId with
  | none => rfl
  | some id =>
    show Prog.eval v₂.answers (store.getLease id >>= _) =
      Prog.eval v₁.answers (store.getLease id >>= _)
    rw [Prog.eval_bind, Prog.eval_bind]
    show (v₂.lease id >>= _) = (v₁.lease id >>= _)
    rw [hlease]
    rfl

/-- Induction on the references. -/
theorem missingEvidence_alike (hevidence : v₂.evidence = v₁.evidence) (evidenceIds : List String) :
    (ControlPlane.missingEvidence evidenceIds).eval v₂.answers =
      (ControlPlane.missingEvidence evidenceIds).eval v₁.answers := by
  induction evidenceIds with
  | nil => rfl
  | cons id evidenceIds ih =>
    rw [ControlPlane.missingEvidence, Prog.eval_bind, Prog.eval_bind]
    show (v₂.evidence id >>= _) = (v₁.evidence id >>= _)
    rw [hevidence]
    simp only [Prog.eval_bind, ih]
    rfl

theorem targetMismatches_alike (htarget : v₂.target = v₁.target)
    (hid : receipt'.targetId = receipt.targetId) (hhash : receipt'.targetHash = receipt.targetHash) :
    (ControlPlane.targetMismatches receipt').eval v₂.answers =
      (ControlPlane.targetMismatches receipt).eval v₁.answers := by
  have hfindings : ControlPlane.targetFindings receipt' = ControlPlane.targetFindings receipt := by
    funext found
    cases found with
    | none => rfl
    | some target =>
      unfold ControlPlane.targetFindings
      rw [hhash]
  unfold ControlPlane.targetMismatches
  rw [hid, hfindings]
  cases truthy receipt.targetId with
  | none => rfl
  | some id =>
    show Prog.eval v₂.answers (store.getTarget id >>= _) =
      Prog.eval v₁.answers (store.getTarget id >>= _)
    rw [Prog.eval_bind, Prog.eval_bind]
    show (v₂.target id >>= _) = (v₁.target id >>= _)
    rw [htarget]
    rfl

/-- The executor check of a fresh receipt has nothing to report. -/
theorem executorMismatches_of_settled {identity : IdentityContext} {leaseId : String}
    (hsettled : Settled v v₁ identity leaseId receipt) :
    (ControlPlane.executorMismatches receipt).eval v₁.answers = .ok [] := by
  unfold ControlPlane.executorMismatches
  by_cases hallow : receipt.decision = "ALLOW"
  · obtain ⟨resultHash, hhash, hconfirmed⟩ := hsettled.action hallow
    rw [if_pos hallow, hhash]
    show Prog.eval v₁.answers (store.hasSyntheticAction receipt.runId resultHash >>= _) = _
    rw [Prog.eval_bind]
    show (v₁.action receipt.runId resultHash >>= _) = _
    rw [hconfirmed]
    rfl
  · rw [if_neg hallow]
    rfl

theorem mismatches_alike {identity : IdentityContext} {leaseId : String}
    (hsettled : Settled v v₁ identity leaseId receipt)
    (hsettled' : Settled v v₂ identity leaseId receipt') (hsame : receipt.SameVerdict receipt') :
    (ControlPlane.mismatches receipt').eval v₂.answers =
      (ControlPlane.mismatches receipt).eval v₁.answers := by
  have hlease := leaseMismatches_alike (hsettled'.lease.trans hsettled.lease.symm)
    (hsettled'.leaseId.trans hsettled.leaseId.symm)
  have hevidence := missingEvidence_alike (hsettled'.evidence.trans hsettled.evidence.symm)
    receipt.registryEvidenceRefs
  have htarget := targetMismatches_alike (hsettled'.target.trans hsettled.target.symm)
    hsame.targetId hsame.targetHash
  unfold ControlPlane.mismatches
  rw [Prog.eval_bind, Prog.eval_bind]
  show (v₂.agent receipt'.agentId >>= _) = (v₁.agent receipt.agentId >>= _)
  rw [hsettled'.agent, hsettled.agent, hsettled'.agentId, hsettled.agentId, hsame.evidenceRefs]
  simp only [Prog.eval_bind, hlease, hevidence, htarget, executorMismatches_of_settled hsettled,
    executorMismatches_of_settled hsettled']
  rfl

/-- The replay of a fresh receipt is the manifest of its mismatches. -/
theorem replay_of_settled (himp : Implements h view) {s₁ : σ} {identity : IdentityContext}
    {leaseId : String} (hsettled : Settled v (view s₁) identity leaseId receipt) :
    (ControlPlane.replay receipt.receiptId).run h s₁ =
      (((ControlPlane.mismatches receipt).eval (view s₁).answers).map
        (ControlPlane.manifestOf receipt), s₁) := by
  rw [himp.run_reads (ControlPlane.replay_issues receipt.receiptId)]
  unfold ControlPlane.replay
  rw [Prog.eval_bind]
  show ((view s₁).receipt receipt.receiptId >>= _, s₁) = _
  rw [hsettled.stored, ok_bind]
  show (Prog.eval _ (ControlPlane.mismatches receipt >>= _), s₁) = _
  rw [Prog.eval_bind]
  cases (ControlPlane.mismatches receipt).eval (view s₁).answers with
  | error e => rfl
  | ok found => rfl

end Replays

/-! ## The two calls -/

/-- What a caller learns from a call that has bound its intent. -/
theorem verdicts_alike (himp : Implements h view) {intent intent' : ActionIntent}
    (hasks : intent.AsksAs intent') (hpar : Serializable (.dict intent.parameters))
    (hpar' : Serializable (.dict intent'.parameters)) {draw draw' : Draw}
    (hnow : draw'.now = draw.now) (cp : ControlPlane) (fuel : Nat) (identity : IdentityContext)
    (leaseId : String) (s : σ) :
    let governed (draw : Draw) (intent : ActionIntent) : StoreM GovernedOutcome := do
      let receipt ← cp.execute fuel draw identity leaseId intent
      let replay ← ControlPlane.replay receipt.receiptId
      return { receipt, replay }
    ((governed draw' intent').run h s).1.map GovernedOutcome.verdict =
      ((governed draw intent).run h s).1.map GovernedOutcome.verdict := by
  intro governed
  rcases execute_alike himp hasks hpar hpar' hnow cp fuel identity leaseId s with
    ⟨e, hrun, hrun'⟩ | ⟨receipt, s₁, receipt', s₁', hrun, hrun', hsame⟩
  · rw [Prog.run_bind_error hrun, Prog.run_bind_error hrun']
  · have hsettled := settled_of_execute himp hrun
    have hsettled' := settled_of_execute himp hrun'
    have hmismatches := mismatches_alike hsettled hsettled' hsame
    have hreplay := replay_of_settled himp hsettled
    have hreplay' := replay_of_settled himp hsettled'
    rw [Prog.run_bind_ok hrun, Prog.run_bind_ok hrun']
    rw [hmismatches] at hreplay'
    cases hfound : (ControlPlane.mismatches receipt).eval (view s₁).answers with
    | error e =>
      rw [hfound] at hreplay hreplay'
      rw [Prog.run_bind_error hreplay, Prog.run_bind_error hreplay']
    | ok found =>
      rw [hfound] at hreplay hreplay'
      rw [Prog.run_bind_ok hreplay, Prog.run_bind_ok hreplay']
      show Except.ok (receipt'.decision, receipt'.reasons, receipt'.registryEvidenceRefs, _, found) =
        Except.ok (receipt.decision, receipt.reasons, receipt.registryEvidenceRefs, _, found)
      rw [hsame.decision, hsame.reasons, hsame.evidenceRefs]
      rfl

end Runs

/-- Planner-controlled content never reaches the gates.  Two proposals that name the same action and
    target end alike, whatever else they say: the calls raise the same exception, or give the same
    decision, reasons, evidence references, replay status and mismatches. -/
theorem planner_content_never_reaches_the_gates [PyRuntime] (s : Backend) (cp : ControlPlane)
    (fuel : Nat) (identity : IdentityContext) (leaseId authorizedTargetId : String)
    (proposal proposal' : PlannerProposal) (haction : proposal'.actionType = proposal.actionType)
    (htarget : proposal'.targetId = proposal.targetId)
    (hpar : Serializable (.dict proposal.parameters))
    (hpar' : Serializable (.dict proposal'.parameters)) (intentId intentId' : String)
    (requestedAt requestedAt' : DateTime) (draw draw' : Draw) (hnow : draw'.now = draw.now) :
    ((executeProposal cp fuel draw' identity leaseId proposal' authorizedTargetId intentId'
        requestedAt').run Backend.handle s).1.map GovernedOutcome.verdict =
      ((executeProposal cp fuel draw identity leaseId proposal authorizedTargetId intentId
        requestedAt).run Backend.handle s).1.map GovernedOutcome.verdict := by
  have hget := getTarget_run backend_implements authorizedTargetId s
  cases hfound : s.view.target authorizedTargetId with
  | error e =>
    rw [hfound] at hget
    unfold executeProposal
    rw [Prog.run_bind_error hget, Prog.run_bind_error hget]
  | ok found =>
    cases found with
    | none =>
      rw [hfound] at hget
      unfold executeProposal
      rw [Prog.run_bind_ok hget, Prog.run_bind_ok hget]
    | some target =>
      rw [executeProposal_bound backend_implements cp fuel draw' identity leaseId proposal' intentId'
          requestedAt' hfound,
        executeProposal_bound backend_implements cp fuel draw identity leaseId proposal intentId
          requestedAt hfound]
      by_cases hother : proposal.targetId ≠ target.targetId
      · have hother' : proposal'.targetId ≠ target.targetId := by
          rw [htarget]
          exact hother
        rw [proposalToIntent, proposalToIntent, if_pos hother, if_pos hother']
        rfl
      · have hother' : ¬ proposal'.targetId ≠ target.targetId := by
          rw [htarget]
          exact hother
        obtain ⟨intentHash, hcreate⟩ := ActionIntent.create_isOk hpar intentId identity.agentId
          proposal.actionType target.targetId target.targetHash requestedAt
        obtain ⟨intentHash', hcreate'⟩ := ActionIntent.create_isOk hpar' intentId' identity.agentId
          proposal'.actionType target.targetId target.targetHash requestedAt'
        rw [proposalToIntent, proposalToIntent, if_neg hother, if_neg hother', hcreate, hcreate']
        have hasks : ActionIntent.AsksAs
            ⟨intentId, identity.agentId, proposal.actionType, target.targetId, target.targetHash,
              proposal.parameters, requestedAt, intentHash⟩
            ⟨intentId', identity.agentId, proposal'.actionType, target.targetId, target.targetHash,
              proposal'.parameters, requestedAt', intentHash'⟩ := ⟨rfl, haction, rfl, rfl⟩
        exact verdicts_alike backend_implements hasks hpar hpar' hnow cp fuel identity leaseId s

open CloudDemo in
/-- Other parameters, another rationale, another id and another time: the mission is decided alike. -/
theorem other_content_is_decided_alike :
    let s := (runCommands Backend.handle 3 missionCalls (.memory {})).2
    ((executeProposal controlPlane 3 missionDraw (identity "s1") "lease-001"
        ⟨action, targetId, [("override_gates", .bool true)], "urgent"⟩ targetId "intent-s2"
        (missionTime.addSeconds 60)).run Backend.handle s).1.map GovernedOutcome.verdict =
      ((executeProposal controlPlane 3 missionDraw (identity "s1") "lease-001"
        ⟨action, targetId, [("work_order", .str "WO-1")], ""⟩ targetId "intent-s1"
        missionTime).run Backend.handle s).1.map GovernedOutcome.verdict := by
  intro s
  exact planner_content_never_reaches_the_gates s controlPlane 3 (identity "s1") "lease-001" targetId
    ⟨action, targetId, [("work_order", .str "WO-1")], ""⟩
    ⟨action, targetId, [("override_gates", .bool true)], "urgent"⟩ rfl rfl
    (serializable_dict.mpr (by simp)) (serializable_dict.mpr (by simp)) "intent-s1" "intent-s2"
    missionTime (missionTime.addSeconds 60) missionDraw missionDraw rfl

end PoiexGoc
