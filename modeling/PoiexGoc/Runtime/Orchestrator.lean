/-
  The boundary between planning and execution, after `poiex_runtime/planner_contract.py` and
  `poiex_runtime/orchestrator.py`: an untrusted proposal is bound to the trusted target and run
  through the control plane.
-/
import PoiexGoc.Runtime.ControlPlane

namespace PoiexGoc

open Py Effect

/-- Untrusted planner output: it names an action and a target, and carries no credential. -/
structure PlannerProposal where
  actionType : String
  targetId : String
  parameters : PyDict
  rationale : String := ""

structure GovernedOutcome where
  receipt : ExecutionReceipt
  replay : ReplayManifest

variable [PyRuntime]

def proposalToIntent (proposal : PlannerProposal) (intentId trustedAgentId : String)
    (trustedTarget : MaterialTarget) (requestedAt : DateTime) : Except PyError ActionIntent :=
  if proposal.targetId ≠ trustedTarget.targetId then
    .error (.valueError "planner proposal target does not match trusted target")
  else
    ActionIntent.create intentId trustedAgentId proposal.actionType trustedTarget.targetId
      trustedTarget.targetHash proposal.parameters requestedAt

/-- `GovernedOrchestrator.execute_proposal`. -/
def executeProposal (cp : ControlPlane) (fuel : Nat) (draw : Draw) (identity : IdentityContext)
    (leaseId : String) (proposal : PlannerProposal) (authorizedTargetId intentId : String)
    (requestedAt : DateTime) : StoreM GovernedOutcome := do
  match ← store.getTarget authorizedTargetId with
  | none => throw (.valueError "authorized target is not present in trusted registry")
  | some target =>
    let intent ← store.lift
      (proposalToIntent proposal intentId identity.agentId target requestedAt)
    let receipt ← cp.execute fuel draw identity leaseId intent
    let replay ← ControlPlane.replay receipt.receiptId
    return { receipt, replay }

end PoiexGoc
