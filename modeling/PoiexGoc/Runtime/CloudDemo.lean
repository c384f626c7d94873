/-
  The demo scenarios, after `poiex_runtime/cloud_demo.py`.

  One request seeds the institutional facts of the scenario, changes one of them in two of the
  four cases, and runs a proposal through the orchestrator.  The clock of the control plane it
  builds always shows the request's `now`; what else a request takes from outside are its three
  `uuid4` values.
-/
import PoiexGoc.Runtime.Orchestrator

namespace PoiexGoc

open Py Effect

namespace CloudDemo

def allowedCases : List String :=
  ["allow", "revoked_authority", "target_substitution", "policy_epoch_stale"]

/-- `_ACTION`. -/
def action : String := "issue_synthetic_work_order"

/-- `_TARGET_ID`. -/
def targetId : String := "pump-A"

/-- `_TRUSTED_ROOT`. -/
def trustedRoot : String := "plant-owner-root"

def isScenarioStart (c : Char) : Bool := c.isAlphanum

def isScenarioChar (c : Char) : Bool := c.isAlphanum || c = '_' || c = '-'

/-- `_SCENARIO_RE.fullmatch(value)`. -/
def matchesScenario (value : String) : Bool :=
  match value.toList with
  | [] => false
  | c :: cs => isScenarioStart c && cs.length ≤ 63 && cs.all isScenarioChar

def validateScenarioId (value : String) : Except PyError String :=
  if matchesScenario value then .ok value
  else .error (.valueError "scenario_id must be 1-64 safe identifier characters")

/-- The `uuid4().hex` values one request draws. -/
structure FreshIds where
  runHex : String
  receiptHex : String
  traceHex : String

/-- The draw of the request's one `execute` call. -/
def FreshIds.drawAt (ids : FreshIds) (now : DateTime) : Draw :=
  { now, createdAt := now, runHex := ids.runHex, receiptHex := ids.receiptHex
    traceHex := ids.traceHex }

structure DemoContext where
  controlPlane : ControlPlane
  identity : IdentityContext
  leaseId : String
  authorizedTargetId : String
  now : DateTime

/-! ## The seeded records -/

def agent : AgentRecord :=
  { agentId := "agent-maint-01", role := "maintenance_outage_coordinator"
    declaredCapabilities := {action}, currentEpoch := 7 }

def provenanceRoot (now : DateTime) : AuthorityProvenanceRecord :=
  { provenanceId := "prov-root", subjectId := "synthetic-owner", issuerId := trustedRoot
    scope := {action}, epoch := 7, issuedAt := now.addSeconds (-3600), revokedAt := none
    parentProvenanceId := none }

def provenanceChild (now : DateTime) : AuthorityProvenanceRecord :=
  { provenanceId := "prov-child", subjectId := agent.agentId, issuerId := "synthetic-owner"
    scope := {action}, epoch := 7, issuedAt := now.addSeconds (-600), revokedAt := none
    parentProvenanceId := some (provenanceRoot now).provenanceId }

def lease (now : DateTime) : AuthorityLease :=
  { leaseId := "lease-001", agentId := agent.agentId, scope := {action}, epoch := 7
    issuedAt := now.addSeconds (-300), expiresAt := now.addSeconds 1200, revokedAt := none
    issuer := "synthetic-owner", provenanceId := some (provenanceChild now).provenanceId }

def controlPlane : ControlPlane :=
  { requireAuthorityProvenance := true, trustedAuthorityRoots := {trustedRoot} }

def identity (scenarioId : String) : IdentityContext :=
  { agentId := agent.agentId, sessionId := "session-" ++ scenarioId, authenticated := true }

variable [PyRuntime]

def bootstrapSyntheticMission (now : DateTime) (scenarioId : String) : StoreM DemoContext := do
  let scenarioId ← store.lift (validateScenarioId scenarioId)
  store.putAgent agent
  let evidence ← store.lift (EvidenceItem.runtimeObservation "ev-runtime-001" agent.agentId action
    now ("trace-observed-" ++ scenarioId))
  store.putEvidence evidence
  ControlPlane.promoteObservedCapability agent.agentId action evidence.evidenceId
  let target ← store.lift
    (MaterialTarget.create targetId "synthetic_equipment" "plant-demo/pump-A" 3 {action})
  store.putTarget target
  store.putAuthorityProvenance (provenanceRoot now)
  store.putAuthorityProvenance (provenanceChild now)
  store.putLease (lease now)
  return {
    controlPlane
    identity := identity scenarioId
    leaseId := (lease now).leaseId
    authorizedTargetId := targetId
    now }

/-! ## One request -/

/-- `_default_proposal`. -/
def defaultProposal (case scenarioId : String) : PlannerProposal :=
  { actionType := action
    targetId := if case = "target_substitution" then "pump-B" else targetId
    parameters := [("work_order", .str ("WO-GOC-" ++ scenarioId))]
    rationale := "synthetic governed maintenance-outage demonstration" }

/-- `proposal or _default_proposal(case, scenario_id)`: a proposal object is always true, and the
    assignment that follows in the source repeats the default. -/
def effectiveProposal (case scenarioId : String) (proposal : Option PlannerProposal) :
    PlannerProposal :=
  proposal.getD (defaultProposal case scenarioId)

/-- The fact a case changes after the seeding. -/
def applyCase (case : String) (ctx : DemoContext) : StoreM Unit :=
  if case = "revoked_authority" then do
    match ← store.getLease ctx.leaseId with
    | none => throw (.runtimeError "demo lease disappeared after bootstrap")
    | some lease => store.putLease { lease with revokedAt := some (ctx.now.addSeconds (-1)) }
  else if case = "policy_epoch_stale" then do
    match ← store.getAgent ctx.identity.agentId with
    | none => throw (.runtimeError "demo agent disappeared after bootstrap")
    | some agent => store.putAgent { agent with currentEpoch := agent.currentEpoch + 1 }
  else pure ()

/-- The result dict.  A rejected request has no `trace_id` and no `replay_mismatches` key. -/
structure DemoResult where
  schema : String := "GOC_CLOUD_DEMO_V0_9"
  truthCeiling : String := "SYNTHETIC_DEMO_ONLY"
  case : String
  scenarioId : String
  decision : String
  reasons : List String
  authorizedTargetId : String
  plannerTargetId : String
  receiptId : Option String
  runId : Option String
  traceId : Option String
  replay : String
  replayMismatches : Option (List String)
  deriving DecidableEq

/-- The result of a request whose intent was refused with a ValueError. -/
def rejectedResult (case scenarioId : String) (ctx : DemoContext) (proposal : PlannerProposal)
    (message : String) : DemoResult :=
  { case, scenarioId, decision := "REJECTED_BEFORE_INTENT", reasons := [message]
    authorizedTargetId := ctx.authorizedTargetId, plannerTargetId := proposal.targetId
    receiptId := none, runId := none, traceId := none, replay := "NOT_CREATED"
    replayMismatches := none }

/-- The result of a request that was executed and replayed. -/
def governedResult (case scenarioId : String) (ctx : DemoContext) (proposal : PlannerProposal)
    (outcome : GovernedOutcome) : DemoResult :=
  { case, scenarioId, decision := outcome.receipt.decision, reasons := outcome.receipt.reasons
    authorizedTargetId := ctx.authorizedTargetId, plannerTargetId := proposal.targetId
    receiptId := some outcome.receipt.receiptId, runId := some outcome.receipt.runId
    traceId := some outcome.receipt.traceId, replay := outcome.replay.reconstructionStatus
    replayMismatches := some outcome.replay.mismatches }

/-- The guarded part of a request: only a ValueError becomes a result. -/
def governProposal (fuel : Nat) (ids : FreshIds) (case scenarioId : String) (ctx : DemoContext)
    (proposal : PlannerProposal) : StoreM DemoResult :=
  tryCatch
    (do
      let outcome ← executeProposal ctx.controlPlane fuel (ids.drawAt ctx.now) ctx.identity
        ctx.leaseId proposal ctx.authorizedTargetId ("intent-" ++ scenarioId ++ "-" ++ case)
        ctx.now
      return governedResult case scenarioId ctx proposal outcome)
    fun
      | .valueError message => pure (rejectedResult case scenarioId ctx proposal message)
      | e => throw e

def runDemoCase (fuel : Nat) (ids : FreshIds) (case : String) (now : DateTime)
    (scenarioId : String) (proposal : Option PlannerProposal) : StoreM DemoResult := do
  if case ∉ allowedCases then throw (.valueError ("unsupported demo case: " ++ case))
  let scenarioId ← store.lift (validateScenarioId scenarioId)
  let ctx ← bootstrapSyntheticMission now scenarioId
  applyCase case ctx
  governProposal fuel ids case scenarioId ctx (effectiveProposal case scenarioId proposal)

end CloudDemo

end PoiexGoc
