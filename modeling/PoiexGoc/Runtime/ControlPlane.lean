/-
  The control plane, after `poiex_runtime/control_plane.py`.

  `execute` is written in two parts.  `gates` makes every read of `ControlPlane.execute` in the
  source's order and reports what it found: the evidence references, the target and the list of
  reasons.  `execute` then writes: the synthetic action and an ALLOW receipt when there is no
  reason, a BLOCK receipt otherwise.  The early return on an identity reason is the report with no
  evidence reference; its receipt has the same fields as the one of a later BLOCK.

  What a call takes from outside the store and its arguments — two clock readings and three
  `uuid4` values — is its `Draw`.  The fuel bounds the provenance loop.
-/
import PoiexGoc.Runtime.AuthorityProvenance
import PoiexGoc.Runtime.Store

namespace PoiexGoc

open Py Effect

structure ControlPlane where
  requireAuthorityProvenance : Bool := false
  trustedAuthorityRoots : Finset String := ∅

/-- The clock readings and the `uuid4().hex` values of one `execute` call. -/
structure Draw where
  now : DateTime
  createdAt : DateTime
  runHex : String
  receiptHex : String
  traceHex : String

def Draw.runId (draw : Draw) : String := "run-" ++ draw.runHex

def Draw.receiptId (draw : Draw) : String := "rcpt-" ++ draw.receiptHex

def Draw.traceId (draw : Draw) : String := "trace-" ++ draw.traceHex

namespace ControlPlane

/-! ## `promote_observed_capability` -/

def promoteObservedCapability (agentId capability evidenceId : String) : StoreM Unit := do
  match ← store.getAgent agentId with
  | none => throw (.valueError "unknown agent")
  | some agent =>
    match ← store.getEvidence evidenceId with
    | none => throw (.valueError "missing evidence")
    | some evidence =>
      if evidence.subjectId ≠ agentId ∨ evidence.claim ≠ capability then
        throw (.valueError "evidence does not bind subject and claim")
      else if evidence.sourceType ≠ .runtimeObservation then
        throw (.valueError "only runtime observation may create OBSERVED capability")
      else
        store.putAgent { agent with
          observedCapabilities := agent.observedCapabilities.insert capability evidenceId }

/-! ## The gates of `execute` -/

def identityReasons (identity : IdentityContext) (agent : Option AgentRecord)
    (intent : ActionIntent) : List String :=
  reasonIf (identity.authenticated = false) "IDENTITY_NOT_AUTHENTICATED" ++
  reasonIf (agent = none) "IDENTITY_UNKNOWN" ++
  reasonIf (intent.agentId ≠ identity.agentId) "IDENTITY_INTENT_MISMATCH"

def capabilityReasons (evidence : Option EvidenceItem) : List String :=
  reasonIf (evidence.map EvidenceItem.sourceType ≠ some .runtimeObservation)
    "CAPABILITY_NOT_OBSERVED"

def leaseReasons (identity : IdentityContext) (intent : ActionIntent) (agent : AgentRecord)
    (lease : AuthorityLease) (now : DateTime) : List String :=
  reasonIf (lease.agentId ≠ identity.agentId) "AUTHORITY_AGENT_MISMATCH" ++
  reasonIf (intent.actionType ∉ lease.scope) "AUTHORITY_OUT_OF_SCOPE" ++
  reasonIf (revokedBy lease.revokedAt now) "AUTHORITY_REVOKED" ++
  reasonIf (lease.expiresAt ≤ now) "AUTHORITY_EXPIRED" ++
  reasonIf (lease.epoch ≠ agent.currentEpoch) "AUTHORITY_EPOCH_STALE"

def targetReasons (intent : ActionIntent) : Option MaterialTarget → List String
  | none => ["TARGET_UNKNOWN"]
  | some target =>
    reasonIf (intent.targetHash ≠ target.targetHash) "TARGET_HASH_MISMATCH" ++
    reasonIf (intent.actionType ∉ target.allowedActions) "TARGET_ACTION_NOT_ALLOWED"

/-- What the gates found. -/
structure GateReport where
  evidenceRefs : List String
  target : Option MaterialTarget
  reasons : List String
  deriving DecidableEq

/-- The evidence item an id refers to; an absent id is not looked up. -/
def readEvidence : Option String → StoreM (Option EvidenceItem)
  | none => pure none
  | some evidenceId => store.getEvidence evidenceId

/-- The provenance verifier against the store. -/
def readProvenance (fuel : Nat) (lease : AuthorityLease) (now : DateTime)
    (trustedRootIssuers : Finset String) : StoreM AuthorityProvenanceResult :=
  verifyAuthorityProvenance (fun provenanceId => store.getAuthorityProvenance provenanceId)
    fuel lease now trustedRootIssuers

/-- The lease gates: the lease's own fields, then its provenance where that is required. -/
def leaseGates (cp : ControlPlane) (fuel : Nat) (now : DateTime) (identity : IdentityContext)
    (intent : ActionIntent) (agent : AgentRecord) : Option AuthorityLease → StoreM (List String)
  | none => pure ["AUTHORITY_LEASE_MISSING"]
  | some lease =>
    if cp.requireAuthorityProvenance then do
      let provenance ← readProvenance fuel lease now cp.trustedAuthorityRoots
      pure (leaseReasons identity intent agent lease now ++ provenance.reasons)
    else pure (leaseReasons identity intent agent lease now)

/-- The gates behind the identity gates, for a registered agent. -/
def materialGates (cp : ControlPlane) (fuel : Nat) (now : DateTime) (identity : IdentityContext)
    (leaseId : String) (intent : ActionIntent) (agent : AgentRecord) : StoreM GateReport := do
  let evidenceId := truthy (agent.observedCapabilities.lookup intent.actionType)
  let evidence ← readEvidence evidenceId
  let lease ← store.getLease leaseId
  let authorityReasons ← leaseGates cp fuel now identity intent agent lease
  let target ← store.getTarget intent.targetId
  pure {
    evidenceRefs := evidenceId.toList
    target
    reasons := capabilityReasons evidence ++ authorityReasons ++ targetReasons intent target }

def gates (cp : ControlPlane) (fuel : Nat) (now : DateTime) (identity : IdentityContext)
    (leaseId : String) (intent : ActionIntent) : StoreM GateReport := do
  let agent ← store.getAgent identity.agentId
  match agent, identityReasons identity agent intent with
  | some agent, [] => materialGates cp fuel now identity leaseId intent agent
  | _, reasons => pure { evidenceRefs := [], target := none, reasons }

/-! ## `execute` -/

/-- The receipt `_receipt` builds. -/
def receiptRecord (draw : Draw) (identity : IdentityContext) (leaseId : Option String)
    (intent : ActionIntent) (evidenceRefs : List String) (targetId targetHash resultHash :
    Option String) (decision : String) (reasons : List String) : ExecutionReceipt where
  receiptId := draw.receiptId
  runId := draw.runId
  agentId := identity.agentId
  sessionId := identity.sessionId
  leaseId
  registryEvidenceRefs := evidenceRefs
  targetId
  targetHash
  intentId := intent.intentId
  intentHash := intent.intentHash
  executorResultHash := resultHash
  decision
  reasons
  createdAt := draw.createdAt
  traceId := draw.traceId

/-- `_receipt`: store the receipt and return it. -/
def receipt (record : ExecutionReceipt) : StoreM ExecutionReceipt := do
  store.putReceipt record
  return record

/-- The payload handed to the executor. -/
def actionPayload (identity : IdentityContext) (intent : ActionIntent) (target : MaterialTarget) :
    PyDict :=
  [("agent_id", .str identity.agentId), ("action_type", .str intent.actionType),
   ("target_id", .str target.targetId), ("target_hash", .str target.targetHash),
   ("parameters", .dict intent.parameters)]

def allowReceipt (draw : Draw) (identity : IdentityContext) (leaseId : String)
    (intent : ActionIntent) (report : GateReport) (target : MaterialTarget) (resultHash : String) :
    ExecutionReceipt :=
  receiptRecord draw identity (some leaseId) intent report.evidenceRefs (some target.targetId)
    (some target.targetHash) (some resultHash) "ALLOW" ["ALL_MATERIAL_GATES_PASS"]

def blockReceipt (draw : Draw) (identity : IdentityContext) (leaseId : String)
    (intent : ActionIntent) (report : GateReport) : ExecutionReceipt :=
  receiptRecord draw identity (some leaseId) intent report.evidenceRefs (some intent.targetId)
    (some intent.targetHash) none "BLOCK" report.reasons

/-- What follows the gates: the writes. -/
def settle (draw : Draw) (identity : IdentityContext) (leaseId : String) (intent : ActionIntent)
    (report : GateReport) : StoreM ExecutionReceipt :=
  match report.target, report.reasons with
  | some target, [] => do
    let resultHash ←
      store.executeSyntheticAction draw.runId (actionPayload identity intent target)
    receipt (allowReceipt draw identity leaseId intent report target resultHash)
  | _, _ => receipt (blockReceipt draw identity leaseId intent report)

def execute (cp : ControlPlane) (fuel : Nat) (draw : Draw) (identity : IdentityContext)
    (leaseId : String) (intent : ActionIntent) : StoreM ExecutionReceipt := do
  let report ← gates cp fuel draw.now identity leaseId intent
  settle draw identity leaseId intent report

/-! ## `replay` -/

/-- The mismatches of the evidence references, in their order. -/
def missingEvidence : List String → StoreM (List String)
  | [] => pure []
  | evidenceId :: evidenceIds => do
    let evidence ← store.getEvidence evidenceId
    let rest ← missingEvidence evidenceIds
    pure (reasonIf (evidence = none)
      ("MISSING_EVIDENCE:" ++ evidenceId) ++ rest)

/-- The lease check of a receipt that names a lease. -/
def leaseMismatches (receipt : ExecutionReceipt) : StoreM (List String) :=
  match truthy receipt.leaseId with
  | none => pure []
  | some leaseId => do
    let lease ← store.getLease leaseId
    pure (reasonIf (lease = none) "MISSING_LEASE")

/-- What a receipt's target hash says about the stored target. -/
def targetFindings (receipt : ExecutionReceipt) : Option MaterialTarget → List String
  | none => ["MISSING_TARGET"]
  | some target => reasonIf (receipt.targetHash ≠ some target.targetHash) "TARGET_HASH_CHANGED"

/-- The target check of a receipt that names a target. -/
def targetMismatches (receipt : ExecutionReceipt) : StoreM (List String) :=
  match truthy receipt.targetId with
  | none => pure []
  | some targetId => do
    let target ← store.getTarget targetId
    pure (targetFindings receipt target)

/-- The executor check of an ALLOW receipt. -/
def executorMismatches (receipt : ExecutionReceipt) : StoreM (List String) :=
  if receipt.decision = "ALLOW" then
    match truthy receipt.executorResultHash with
    | none => pure ["MISSING_EXECUTOR_RESULT_HASH"]
    | some resultHash => do
      let found ← store.hasSyntheticAction receipt.runId resultHash
      pure (reasonIf (found = false) "EXECUTOR_RESULT_NOT_RECONSTRUCTABLE")
  else pure []

/-- The mismatches of a stored receipt. -/
def mismatches (receipt : ExecutionReceipt) : StoreM (List String) := do
  let agent ← store.getAgent receipt.agentId
  let leaseFindings ← leaseMismatches receipt
  let evidenceFindings ← missingEvidence receipt.registryEvidenceRefs
  let targetFindings ← targetMismatches receipt
  let executorFindings ← executorMismatches receipt
  pure (reasonIf (agent = none) "MISSING_AGENT" ++ leaseFindings ++ evidenceFindings ++
    targetFindings ++ executorFindings)

def replay (receiptId : String) : StoreM ReplayManifest := do
  match ← store.getReceipt receiptId with
  | none => throw (.valueError "unknown receipt")
  | some receipt =>
    let found ← mismatches receipt
    pure {
      runId := receipt.runId
      receiptId := receipt.receiptId
      reconstructionStatus := if found = [] then "PASS" else "FAIL"
      mismatches := found
      traceId := receipt.traceId }

end ControlPlane

end PoiexGoc
