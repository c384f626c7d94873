/-
  Which operations the control plane CALLS.

  Each program is bounded by the operations it can make, whatever the store answers
  (`Effect.Prog.Issues`):
  * the gates read the registry and nothing else (`gates_issues`);
  * `execute` adds the write of one receipt and of one action, both under the ids of its own draw
    (`execute_issues`);
  * a replay reads the registry, its receipt and actions (`replay_issues`);
  * a promotion reads an agent and an evidence item and puts the agent back (`promote_issues`).

  These bounds are what the refinement, the ledger and the interleaving results start from.
-/
import PoiexGoc.Runtime.ControlPlane
import PoiexGoc.Spec.StoreView

namespace PoiexGoc

open Py Effect

/-- The rules for one call, at the storage contract. -/
theorem store.call_issues {P : StoreOp → Prop} (o : StoreOp) (ho : P o) :
    (store.call o).Issues P :=
  (@Prog.issues_perform RuntimeStore PyError P o).mpr ho

theorem store.call_meets {A : (o : StoreOp) → Except PyError o.Result → Prop}
    {P : StoreOp → Prop} (o : StoreOp) (ho : P o) : (store.call o).Meets A P (A o) :=
  @Prog.meets_perform RuntimeStore PyError A P o ho

/-- A pure computation calls nothing. -/
theorem store.lift_issues {α : Type} (P : StoreOp → Prop) (e : Except PyError α) :
    (store.lift e).Issues P := trivial

theorem store.lift_meets {α : Type} (A : (o : StoreOp) → Except PyError o.Result → Prop)
    (P : StoreOp → Prop) (e : Except PyError α) : (store.lift e).Meets A P fun _ => True := trivial

/-- The reads of the registry: agents, leases, provenance, evidence and targets. -/
def StoreOp.IsRegistryRead : StoreOp → Prop
  | .getAgent _ | .getLease _ | .getAuthorityProvenance _ | .getEvidence _ | .getTarget _ => True
  | _ => False

/-- The puts of registry records. -/
def StoreOp.IsRegistryPut : StoreOp → Prop
  | .putAgent _ | .putLease _ | .putAuthorityProvenance _ | .putEvidence _ | .putTarget _ => True
  | _ => False

theorem StoreOp.IsRegistryRead.isRead {o : StoreOp} (ho : o.IsRegistryRead) : o.IsRead := by
  cases o with
  | getAgent | getLease | getAuthorityProvenance | getEvidence | getTarget => trivial
  | _ => exact ho.elim

namespace ControlPlane

/-! ## The gates -/

/-- The provenance loop only looks records up.  Induction on the fuel. -/
theorem walk_issues {P : StoreOp → Prop} (hread : ∀ id, P (.getAuthorityProvenance id))
    (lease : AuthorityLease) (now : DateTime) (roots : Finset String) (fuel : Nat)
    (st : WalkState) :
    (walk (fun id => store.getAuthorityProvenance id) lease now roots fuel st).Issues P := by
  induction fuel generalizing st with
  | zero => trivial
  | succ fuel ih =>
    rw [walk]
    by_cases hvis : st.currentId ∈ st.visited
    · rw [if_pos hvis]
      trivial
    · rw [if_neg hvis]
      refine Prog.issues_bind (store.call_issues _ (hread _)) fun record => ?_
      cases record with
      | none => trivial
      | some record =>
        cases hparent : record.parentProvenanceId with
        | none =>
          simp only [hparent]
          trivial
        | some parent =>
          simp only [hparent]
          exact ih _

theorem readProvenance_issues {P : StoreOp → Prop} (hread : ∀ id, P (.getAuthorityProvenance id))
    (fuel : Nat) (lease : AuthorityLease) (now : DateTime) (roots : Finset String) :
    (readProvenance fuel lease now roots).Issues P := by
  unfold readProvenance verifyAuthorityProvenance
  cases truthy lease.provenanceId with
  | none => trivial
  | some provenanceId =>
    exact Prog.issues_bind (walk_issues hread lease now roots fuel _) fun _ => trivial

theorem readEvidence_issues (evidenceId : Option String) :
    (readEvidence evidenceId).Issues StoreOp.IsRegistryRead := by
  cases evidenceId with
  | none => trivial
  | some evidenceId => exact store.call_issues _ trivial

theorem leaseGates_issues {P : StoreOp → Prop} (hread : ∀ id, P (.getAuthorityProvenance id))
    (cp : ControlPlane) (fuel : Nat) (now : DateTime) (identity : IdentityContext)
    (intent : ActionIntent) (agent : AgentRecord) (lease : Option AuthorityLease) :
    (leaseGates cp fuel now identity intent agent lease).Issues P := by
  cases lease with
  | none => trivial
  | some lease =>
    rw [leaseGates]
    by_cases hprov : cp.requireAuthorityProvenance
    · rw [if_pos hprov]
      exact Prog.issues_bind (readProvenance_issues hread fuel lease now _) fun _ => trivial
    · rw [if_neg hprov]
      trivial

theorem materialGates_issues (cp : ControlPlane) (fuel : Nat) (now : DateTime)
    (identity : IdentityContext) (leaseId : String) (intent : ActionIntent)
    (agent : AgentRecord) :
    (materialGates cp fuel now identity leaseId intent agent).Issues StoreOp.IsRegistryRead := by
  unfold materialGates
  refine Prog.issues_bind (readEvidence_issues _) fun evidence => ?_
  refine Prog.issues_bind (store.call_issues _ trivial) fun lease => ?_
  refine Prog.issues_bind (leaseGates_issues (fun _ => trivial) cp fuel now identity intent agent
    lease) fun _ => ?_
  exact Prog.issues_bind (store.call_issues _ trivial) fun _ => trivial

theorem gates_issues (cp : ControlPlane) (fuel : Nat) (now : DateTime)
    (identity : IdentityContext) (leaseId : String) (intent : ActionIntent) :
    (gates cp fuel now identity leaseId intent).Issues StoreOp.IsRegistryRead := by
  unfold gates
  refine Prog.issues_bind (store.call_issues _ trivial) fun agent => ?_
  split
  · exact materialGates_issues cp fuel now identity leaseId intent _
  · trivial

/-! ## `execute` -/

/-- The operations of one `execute` call: reads of the registry, and writes under its own ids. -/
def ExecuteOp (draw : Draw) : StoreOp → Prop
  | .putReceipt receipt => receipt.receiptId = draw.receiptId ∧ receipt.runId = draw.runId
  | .executeSyntheticAction runId _ => runId = draw.runId
  | o => o.IsRegistryRead

theorem ExecuteOp.of_registryRead {draw : Draw} {o : StoreOp} (ho : o.IsRegistryRead) :
    ExecuteOp draw o := by
  cases o with
  | getAgent | getLease | getAuthorityProvenance | getEvidence | getTarget => trivial
  | _ => exact ho.elim

theorem ExecuteOp.storable [PyRuntime] {draw : Draw} {o : StoreOp} (ho : ExecuteOp draw o) :
    o.Storable := by
  cases o with
  | putTarget => exact ho.elim
  | _ => trivial

/-- What follows the gates are writes under the ids of the draw. -/
theorem settle_issues {P : StoreOp → Prop} {draw : Draw}
    (hreceipt : ∀ receipt : ExecutionReceipt, receipt.receiptId = draw.receiptId →
      receipt.runId = draw.runId → P (.putReceipt receipt))
    (haction : ∀ payload, P (.executeSyntheticAction draw.runId payload))
    (identity : IdentityContext) (leaseId : String) (intent : ActionIntent) (report : GateReport) :
    (settle draw identity leaseId intent report).Issues P := by
  unfold settle
  split
  · refine Prog.issues_bind (store.call_issues _ (haction _)) fun resultHash => ?_
    exact Prog.issues_bind (store.call_issues _ (hreceipt _ rfl rfl)) fun _ => trivial
  · exact Prog.issues_bind (store.call_issues _ (hreceipt _ rfl rfl)) fun _ => trivial

theorem execute_issues (cp : ControlPlane) (fuel : Nat) (draw : Draw)
    (identity : IdentityContext) (leaseId : String) (intent : ActionIntent) :
    (execute cp fuel draw identity leaseId intent).Issues (ExecuteOp draw) := by
  unfold execute
  exact Prog.issues_bind
    ((gates_issues cp fuel draw.now identity leaseId intent).mono
      fun _ => ExecuteOp.of_registryRead)
    fun report => settle_issues (fun _ hid hrun => ⟨hid, hrun⟩) (fun _ => rfl) identity leaseId
      intent report

/-- A call returns the receipt of its own draw, if it returns. -/
theorem execute_meets (A : (o : StoreOp) → Except PyError o.Result → Prop) (cp : ControlPlane)
    (fuel : Nat) (draw : Draw) (identity : IdentityContext) (leaseId : String)
    (intent : ActionIntent) :
    (execute cp fuel draw identity leaseId intent).Meets A (ExecuteOp draw)
      fun r => ∀ receipt, r = .ok receipt → receipt.receiptId = draw.receiptId := by
  have hreceipt : ∀ receipt : ExecutionReceipt, receipt.receiptId = draw.receiptId →
      receipt.runId = draw.runId →
      (ControlPlane.receipt receipt).Meets A (ExecuteOp draw)
        fun r => ∀ receipt, r = .ok receipt → receipt.receiptId = draw.receiptId := by
    intro receipt hid hrun
    refine Prog.meets_bind_ok (store.call_meets (.putReceipt receipt) ⟨hid, hrun⟩) fun _ _ => ?_
    exact fun receipt' hok => Except.ok.inj hok ▸ hid
  have hgates : (gates cp fuel draw.now identity leaseId intent).Meets A (ExecuteOp draw)
      fun _ => True :=
    ((gates_issues cp fuel draw.now identity leaseId intent).mono
      fun _ => ExecuteOp.of_registryRead).meets A
  refine Prog.meets_bind_ok hgates fun report _ => ?_
  unfold settle
  split
  · exact Prog.meets_bind_ok (store.call_meets (.executeSyntheticAction draw.runId _) rfl)
      fun resultHash _ => hreceipt _ rfl rfl
  · exact hreceipt _ rfl rfl

/-! ## `replay` and `promote_observed_capability` -/

/-- The operations of the replay of a receipt that belongs to the run `runId`. -/
def ReplayOp (receiptId runId : String) : StoreOp → Prop
  | .getReceipt id => id = receiptId
  | .hasSyntheticAction id _ => id = runId
  | o => o.IsRegistryRead

/-- The stored receipt belongs to the run `runId`. -/
def ReceiptOfRun (receiptId runId : String) : (o : StoreOp) → Except PyError o.Result → Prop
  | .getReceipt id, r => id = receiptId → ∀ receipt, r = .ok (some receipt) → receipt.runId = runId
  | _, _ => True

section Mismatches

variable {P : StoreOp → Prop}

/-- Induction on the evidence references. -/
theorem missingEvidence_issues {evidenceIds : List String}
    (hread : ∀ id ∈ evidenceIds, P (.getEvidence id)) : (missingEvidence evidenceIds).Issues P := by
  induction evidenceIds with
  | nil => trivial
  | cons evidenceId evidenceIds ih =>
    obtain ⟨hfirst, hrest⟩ := List.forall_mem_cons.mp hread
    refine Prog.issues_bind (store.call_issues _ hfirst) fun evidence => ?_
    exact Prog.issues_bind (ih hrest) fun _ => trivial

theorem leaseMismatches_issues {receipt : ExecutionReceipt}
    (hread : ∀ id, truthy receipt.leaseId = some id → P (.getLease id)) :
    (leaseMismatches receipt).Issues P := by
  unfold leaseMismatches
  cases hid : truthy receipt.leaseId with
  | none => trivial
  | some leaseId =>
    exact Prog.issues_bind (store.call_issues _ (hread leaseId hid)) fun _ => trivial

theorem targetMismatches_issues {receipt : ExecutionReceipt}
    (hread : ∀ id, truthy receipt.targetId = some id → P (.getTarget id)) :
    (targetMismatches receipt).Issues P := by
  unfold targetMismatches
  cases hid : truthy receipt.targetId with
  | none => trivial
  | some targetId =>
    exact Prog.issues_bind (store.call_issues _ (hread targetId hid)) fun _ => trivial

/-- Only a receipt that says ALLOW has its action looked up. -/
theorem executorMismatches_issues {receipt : ExecutionReceipt}
    (hread : receipt.decision = "ALLOW" → ∀ resultHash,
      truthy receipt.executorResultHash = some resultHash →
        P (.hasSyntheticAction receipt.runId resultHash)) :
    (executorMismatches receipt).Issues P := by
  unfold executorMismatches
  by_cases hallow : receipt.decision = "ALLOW"
  · rw [if_pos hallow]
    cases hhash : truthy receipt.executorResultHash with
    | none => trivial
    | some resultHash =>
      exact Prog.issues_bind (store.call_issues _ (hread hallow resultHash hhash)) fun _ => trivial
  · rw [if_neg hallow]
    trivial

/-- What the receipt refers to is all that is looked up. -/
theorem mismatches_issues {receipt : ExecutionReceipt} (hagent : P (.getAgent receipt.agentId))
    (hlease : ∀ id, truthy receipt.leaseId = some id → P (.getLease id))
    (hevidence : ∀ id ∈ receipt.registryEvidenceRefs, P (.getEvidence id))
    (htarget : ∀ id, truthy receipt.targetId = some id → P (.getTarget id))
    (haction : receipt.decision = "ALLOW" → ∀ resultHash,
      truthy receipt.executorResultHash = some resultHash →
        P (.hasSyntheticAction receipt.runId resultHash)) :
    (mismatches receipt).Issues P := by
  unfold mismatches
  refine Prog.issues_bind (store.call_issues _ hagent) fun agent => ?_
  refine Prog.issues_bind (leaseMismatches_issues hlease) fun _ => ?_
  refine Prog.issues_bind (missingEvidence_issues hevidence) fun _ => ?_
  refine Prog.issues_bind (targetMismatches_issues htarget) fun _ => ?_
  exact Prog.issues_bind (executorMismatches_issues haction) fun _ => trivial

end Mismatches

theorem replay_issues (receiptId : String) : (replay receiptId).Issues StoreOp.IsRead := by
  unfold replay
  refine Prog.issues_bind (store.call_issues _ trivial) fun receipt => ?_
  cases receipt with
  | none => trivial
  | some receipt =>
    exact Prog.issues_bind (mismatches_issues trivial (fun _ _ => trivial) (fun _ _ => trivial)
      (fun _ _ => trivial) fun _ _ _ => trivial) fun _ => trivial

/-- While the stored receipt is one of the run `runId`, its replay asks for no other run. -/
theorem replay_meets (receiptId runId : String) :
    (replay receiptId).Meets (ReceiptOfRun receiptId runId) (ReplayOp receiptId runId)
      fun _ => True := by
  refine ⟨rfl, fun r hr => ?_⟩
  cases r with
  | error e => trivial
  | ok receipt =>
    cases receipt with
    | none => trivial
    | some receipt =>
      have hrun : receipt.runId = runId := hr rfl receipt rfl
      have hissues : (mismatches receipt).Issues (ReplayOp receiptId runId) :=
        mismatches_issues trivial (fun _ _ => trivial) (fun _ _ => trivial) (fun _ _ => trivial)
          fun _ _ _ => hrun
      apply Prog.Issues.meets
      show Prog.Issues _ (mismatches receipt >>= _)
      exact Prog.issues_bind hissues fun _ => trivial

/-- A promotion reads one agent and one evidence item, and puts that agent. -/
theorem promote_issues (agentId capability evidenceId : String) :
    (promoteObservedCapability agentId capability evidenceId).Issues
      (fun o => o = StoreOp.getAgent agentId ∨ o = StoreOp.getEvidence evidenceId ∨
        ∃ agent, o = StoreOp.putAgent agent) := by
  unfold promoteObservedCapability
  refine Prog.issues_bind ((Prog.issues_perform _ _).mpr (Or.inl rfl)) fun agent => ?_
  cases agent with
  | none => trivial
  | some agent =>
    refine Prog.issues_bind ((Prog.issues_perform _ _).mpr (Or.inr (Or.inl rfl))) fun evidence => ?_
    cases evidence with
    | none => trivial
    | some evidence =>
      show Prog.Issues _ (if _ then _ else if _ then _ else _)
      split
      · trivial
      · split
        · trivial
        · exact (Prog.issues_perform _ _).mpr (Or.inr (Or.inr ⟨_, rfl⟩))

end ControlPlane

end PoiexGoc
