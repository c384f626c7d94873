/-
  INTENT HASHES: what the receipt of an allowed execution says of what was executed.

  An intent carries a hash that was computed once, when it was created.  The gates and the executor
  read its other fields; the receipt gets the hash as it is.

  1. `ActionIntent.SelfConsistent` — the intent carries the hash of its own fields.  `create` makes
     such an intent (`create_selfConsistent`); nothing else in an execution looks at the hash.

  2. `Backend.payloadOf` — what the action record of a run was executed with: the fields of the
     intent, under the ids of the stored target (`execute_allow_payload`).

  3. `receipt_carries_the_intent_hash` — so the receipt's intent hash is the one of the executed
     fields exactly for a self-consistent intent; what a receipt binds in any case is the executed
     payload, by the executor's result hash.
-/
import PoiexGoc.Proofs.ProposalAtomicity
import PoiexGoc.Proofs.StandingReceipts

namespace PoiexGoc

open Py Effect

section Intents

variable [PyRuntime]

/-- The fields the intent's hash is about. -/
def ActionIntent.fields (intent : ActionIntent) : PyDict :=
  ActionIntent.payload intent.intentId intent.agentId intent.actionType intent.targetId
    intent.targetHash intent.parameters intent.requestedAt

/-- The intent carries the hash of its fields. -/
def ActionIntent.SelfConsistent (intent : ActionIntent) : Prop :=
  canonicalHash intent.fields = .ok intent.intentHash

instance (intent : ActionIntent) : Decidable intent.SelfConsistent :=
  inferInstanceAs (Decidable (_ = _))

theorem ActionIntent.create_selfConsistent {intentId agentId actionType targetId targetHash : String}
    {parameters : PyDict} {requestedAt : DateTime} {intent : ActionIntent}
    (hcreate : ActionIntent.create intentId agentId actionType targetId targetHash parameters
      requestedAt = .ok intent) : intent.SelfConsistent := by
  obtain ⟨intentHash, hhash, hintent⟩ := bind_eq_ok.mp hcreate
  rw [← Except.ok.inj hintent]
  exact hhash

/-- An intent bound to a trusted target is made by `create`. -/
theorem create_of_proposalToIntent {proposal : PlannerProposal} {intentId agentId : String}
    {target : MaterialTarget} {requestedAt : DateTime} {intent : ActionIntent}
    (hintent : proposalToIntent proposal intentId agentId target requestedAt = .ok intent) :
    ActionIntent.create intentId agentId proposal.actionType target.targetId target.targetHash
      proposal.parameters requestedAt = .ok intent := by
  rw [proposalToIntent] at hintent
  by_cases hother : proposal.targetId ≠ target.targetId
  · rw [if_pos hother] at hintent
    cases hintent
  · rwa [if_neg hother] at hintent

/-- A proposal that returns was bound to the trusted target, executed and replayed. -/
theorem executeProposal_parts {σ : Type} {h : Handler RuntimeStore PyError σ} {view : σ → StoreView}
    (himp : Implements h view) {cp : ControlPlane} {fuel : Nat} {draw : Draw}
    {identity : IdentityContext} {leaseId : String} {proposal : PlannerProposal}
    {authorizedTargetId intentId : String} {requestedAt : DateTime} {s s' : σ}
    {outcome : GovernedOutcome}
    (hrun : (executeProposal cp fuel draw identity leaseId proposal authorizedTargetId intentId
      requestedAt).run h s = (.ok outcome, s')) :
    ∃ target intent s₁, (view s).target authorizedTargetId = .ok (some target) ∧
      proposalToIntent proposal intentId identity.agentId target requestedAt = .ok intent ∧
      (cp.execute fuel draw identity leaseId intent).run h s = (.ok outcome.receipt, s₁) ∧
      (ControlPlane.replay outcome.receipt.receiptId).run h s₁ = (.ok outcome.replay, s') := by
  obtain ⟨found, s₀, hget, hrest⟩ := Prog.run_bind_eq_ok.mp hrun
  obtain ⟨hfound, hstate⟩ := Prod.mk.inj ((getTarget_run himp authorizedTargetId s).symm.trans hget)
  subst hstate
  cases found with
  | none => cases hrest
  | some target =>
    obtain ⟨intent, s₁, hintent, hrest⟩ := Prog.run_bind_eq_ok.mp hrest
    obtain ⟨hok, hsame⟩ := Prod.mk.inj hintent
    subst hsame
    obtain ⟨receipt, s₂, hexecute, hrest⟩ := Prog.run_bind_eq_ok.mp hrest
    obtain ⟨replay, s₃, hreplay, hrest⟩ := Prog.run_bind_eq_ok.mp hrest
    obtain ⟨houtcome, hend⟩ := Prod.mk.inj hrest
    rw [← Except.ok.inj houtcome, ← hend]
    exact ⟨target, intent, s₂, hfound, hok, hexecute, hreplay⟩

/-! ## The action record -/

/-- The payload in the action record of a run. -/
def Backend.payloadOf (s : Backend) (runId : String) : Option PyValue :=
  match s.actionDoc runId with
  | some (.dict record) => record.lookup "payload"
  | _ => none

theorem Backend.payloadOf_executed (s : Backend) {runId resultHash : String} {payload : PyDict}
    (hhash : canonicalHash (syntheticResult runId payload) = .ok resultHash) :
    (Backend.handle (.executeSyntheticAction runId payload) s).2.payloadOf runId =
      some (.dict payload) := by
  cases s with
  | memory s =>
    simp only [Backend.handle, MemoryStore.handle, MemoryStore.executeSyntheticAction, hhash,
      Backend.payloadOf, Backend.actionDoc, Finmap.lookup_insert, Option.map_some]
    rfl
  | firestore fs c =>
    simp only [Backend.handle, FirestoreStore.handle, FirestoreStore.executeSyntheticAction, hhash,
      FirestoreStore.put, Backend.payloadOf, Backend.actionDoc, Finmap.lookup_insert]
    rfl

/-- What an allowed execution was given, and what it stored. -/
theorem execute_allow_payload {s s' : Backend} {cp : ControlPlane} {fuel : Nat} {draw : Draw}
    {identity : IdentityContext} {leaseId : String} {intent : ActionIntent}
    {receipt : ExecutionReceipt}
    (hrun : (cp.execute fuel draw identity leaseId intent).run Backend.handle s = (.ok receipt, s'))
    (hallow : receipt.decision = "ALLOW") :
    ∃ target resultHash, s.view.target intent.targetId = .ok (some target) ∧
      target.targetHash = intent.targetHash ∧ intent.agentId = identity.agentId ∧
      receipt.runId = draw.runId ∧ receipt.intentId = intent.intentId ∧
      receipt.intentHash = intent.intentHash ∧ receipt.executorResultHash = some resultHash ∧
      canonicalHash (syntheticResult draw.runId
        (ControlPlane.actionPayload identity intent target)) = .ok resultHash ∧
      s'.payloadOf draw.runId =
        some (.dict (ControlPlane.actionPayload identity intent target)) := by
  obtain ⟨report, agent, evidenceId, evidence, lease, target, resultHash, -, -, hadmitted, hhash,
    rfl, rfl⟩ := ControlPlane.execute_allowed backend_implements hrun hallow
  refine ⟨target, resultHash, hadmitted.targeted, hadmitted.targetHash.symm, hadmitted.bound, rfl,
    rfl, rfl, rfl, hhash, ?_⟩
  unfold Backend.payloadOf
  rw [Backend.actionDoc_putReceipt]
  exact s.payloadOf_executed hhash

/-- The receipt of an allowed execution carries the intent's hash as it is, and it binds the
    executed payload, made of the intent's own fields and the stored target's id.  So its intent
    hash is the one of these fields exactly for an intent that carries it; one made by `create` does,
    and so does every intent of a governed proposal. -/
theorem receipt_carries_the_intent_hash (s : Backend) (cp : ControlPlane) (fuel : Nat) (draw : Draw)
    (identity : IdentityContext) (leaseId : String) :
    (∀ (intent : ActionIntent) (receipt : ExecutionReceipt) (s' : Backend),
      (cp.execute fuel draw identity leaseId intent).run Backend.handle s = (.ok receipt, s') →
      receipt.decision = "ALLOW" →
      receipt.intentId = intent.intentId ∧ receipt.intentHash = intent.intentHash ∧
      (canonicalHash intent.fields = .ok receipt.intentHash ↔ intent.SelfConsistent) ∧
      ∃ target payload resultHash, s.view.target intent.targetId = .ok (some target) ∧
        payload = [("agent_id", .str intent.agentId), ("action_type", .str intent.actionType),
          ("target_id", .str target.targetId), ("target_hash", .str intent.targetHash),
          ("parameters", .dict intent.parameters)] ∧
        s'.payloadOf receipt.runId = some (.dict payload) ∧
        receipt.executorResultHash = some resultHash ∧
        canonicalHash (syntheticResult receipt.runId payload) = .ok resultHash) ∧
    (∀ (intentId agentId actionType targetId targetHash : String) (parameters : PyDict)
        (requestedAt : DateTime) (intent : ActionIntent),
      ActionIntent.create intentId agentId actionType targetId targetHash parameters requestedAt =
        .ok intent → intent.SelfConsistent) ∧
    (∀ (proposal : PlannerProposal) (authorizedTargetId intentId : String) (requestedAt : DateTime)
        (outcome : GovernedOutcome),
      ((executeProposal cp fuel draw identity leaseId proposal authorizedTargetId intentId
        requestedAt).run Backend.handle s).1 = .ok outcome →
      outcome.receipt.decision = "ALLOW" →
      ∃ target, s.view.target authorizedTargetId = .ok (some target) ∧
        canonicalHash (ActionIntent.payload intentId identity.agentId proposal.actionType
          target.targetId target.targetHash proposal.parameters requestedAt) =
            .ok outcome.receipt.intentHash) := by
  refine ⟨?_, fun _ _ _ _ _ _ _ _ hcreate => ActionIntent.create_selfConsistent hcreate, ?_⟩
  · intro intent receipt s' hrun hallow
    obtain ⟨target, resultHash, htarget, htargetHash, hagent, hrunId, hid, hintent, hresult, hhash,
      hpayload⟩ := execute_allow_payload hrun hallow
    refine ⟨hid, hintent, ?_, target, ControlPlane.actionPayload identity intent target, resultHash,
      htarget, ?_, ?_, hresult, ?_⟩
    · rw [hintent]
      exact Iff.rfl
    · unfold ControlPlane.actionPayload
      rw [hagent, htargetHash]
    · rw [hrunId]
      exact hpayload
    · rw [hrunId]
      exact hhash
  · intro proposal authorizedTargetId intentId requestedAt outcome hrun hallow
    obtain ⟨target, intent, s₁, htarget, hintent, hexecute, -⟩ :=
      executeProposal_parts backend_implements (Prod.ext hrun rfl)
    obtain ⟨stored, resultHash, -, -, -, -, -, hsame, -⟩ := execute_allow_payload hexecute hallow
    have hcreate := create_of_proposalToIntent hintent
    obtain ⟨intentHash, hhash, hmade⟩ := bind_eq_ok.mp hcreate
    refine ⟨target, htarget, ?_⟩
    rw [hsame, ← Except.ok.inj hmade]
    exact hhash

end Intents

namespace CloudDemo

/-- The mission's intent with the hash that `create` gives it. -/
def hashedIntent : ActionIntent :=
  { missionIntent with
    intentHash := "b8ea403f3d3d6b287a3d5eef8019a358c1f5bb0abbaae86b8361429afdeb5ae6" }

theorem hashedIntent_created :
    ActionIntent.create "intent-s1" agent.agentId action targetId missionTarget.targetHash
      [("work_order", .str "WO-1")] missionTime = .ok hashedIntent := by
  have hhash : canonicalHash (ActionIntent.payload "intent-s1" agent.agentId action targetId
      missionTarget.targetHash [("work_order", .str "WO-1")] missionTime) =
        .ok hashedIntent.intentHash := by decide +kernel
  unfold ActionIntent.create
  rw [hhash]
  rfl

/-- The same intent with another work order, under the old hash. -/
def rewrittenIntent : ActionIntent := { hashedIntent with parameters := [("work_order", .str "WO-2")] }

end CloudDemo

open CloudDemo in
/-- An intent whose parameters were replaced after it was created is allowed, and its receipt
    carries the hash of the parameters it was created with. -/
theorem rewritten_intent_is_allowed :
    let s := (runCommands Backend.handle 3 missionCalls (.memory {})).2
    ActionIntent.create "intent-s1" agent.agentId action targetId missionTarget.targetHash
      [("work_order", .str "WO-1")] missionTime = .ok hashedIntent ∧
    ((controlPlane.execute 3 missionDraw (identity "s1") "lease-001" rewrittenIntent).run
      Backend.handle s).1.map (fun receipt => (receipt.decision, receipt.intentHash)) =
        .ok ("ALLOW", hashedIntent.intentHash) ∧
    canonicalHash rewrittenIntent.fields ≠ .ok hashedIntent.intentHash := by
  refine ⟨hashedIntent_created, ?_, ?_⟩
  · decide +kernel
  · decide +kernel

open CloudDemo in
/-- The receipt of the mission's own intent carries the hash of its fields. -/
theorem mission_receipt_binds_intent :
    ∃ receipt, ((controlPlane.execute 3 missionDraw (identity "s1") "lease-001" hashedIntent).run
      Backend.handle (runCommands Backend.handle 3 missionCalls (.memory {})).2).1 = .ok receipt ∧
      canonicalHash hashedIntent.fields = .ok receipt.intentHash := by
  have hdecision : ((controlPlane.execute 3 missionDraw (identity "s1") "lease-001"
      hashedIntent).run Backend.handle (runCommands Backend.handle 3 missionCalls
        (.memory {})).2).1.map ExecutionReceipt.decision = .ok "ALLOW" := by decide +kernel
  obtain ⟨receipt, hreceipt, hallow⟩ := map_eq_ok hdecision
  have hlaw := receipt_carries_the_intent_hash
    (runCommands Backend.handle 3 missionCalls (.memory {})).2 controlPlane 3 missionDraw
    (identity "s1") "lease-001"
  obtain ⟨-, -, hbinds, -⟩ := hlaw.1 hashedIntent receipt _ (Prod.ext hreceipt rfl) hallow
  exact ⟨receipt, hreceipt, hbinds.mpr (hlaw.2.1 _ _ _ _ _ _ _ _ hashedIntent_created)⟩

end PoiexGoc
