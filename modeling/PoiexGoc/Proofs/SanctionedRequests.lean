/-
  SANCTIONED REQUESTS: exactly which requests an execution allows, on any backend.

  `Sanctioned` has one field for each gate, all about stored records: the delegation is a chain
  among them, no longer than the fuel.  It says nothing of what the gates computed.

  1. `gates_clean_iff` — the gates return without a reason exactly when the request is sanctioned.

  2. `execute_allows_iff` — and the execution returns ALLOW exactly when moreover the parameters
     have a canonical text.
-/
import PoiexGoc.Proofs.Admissions

namespace PoiexGoc

open Py Effect ParentChain

namespace ControlPlane

/-- What the stored records have to be for a request to pass every gate. -/
structure Sanctioned (v : StoreView) (cp : ControlPlane) (fuel : Nat) (now : DateTime)
    (identity : IdentityContext) (leaseId : String) (intent : ActionIntent) (agent : AgentRecord)
    (evidenceId : String) (evidence : EvidenceItem) (lease : AuthorityLease)
    (target : MaterialTarget) : Prop where
  authenticated : identity.authenticated = true
  registered : v.agent identity.agentId = .ok (some agent)
  bound : intent.agentId = identity.agentId
  observed : truthy (agent.observedCapabilities.lookup intent.actionType) = some evidenceId
  evidenced : v.evidence evidenceId = .ok (some evidence)
  observation : evidence.sourceType = .runtimeObservation
  leased : v.lease leaseId = .ok (some lease)
  holder : lease.agentId = identity.agentId
  inScope : intent.actionType ∈ lease.scope
  unrevoked : ¬ revokedBy lease.revokedAt now
  unexpired : now < lease.expiresAt
  epoch : lease.epoch = agent.currentEpoch
  delegated : cp.requireAuthorityProvenance = true → ∃ chain,
    LegitimateChain v.provenanceRecord lease now cp.trustedAuthorityRoots chain ∧
      chain.length ≤ fuel
  targeted : v.target intent.targetId = .ok (some target)
  targetHash : intent.targetHash = target.targetHash
  targetAction : intent.actionType ∈ target.allowedActions

section Gates

variable {v : StoreView} {cp : ControlPlane} {fuel : Nat} {now : DateTime}
  {identity : IdentityContext} {leaseId : String} {intent : ActionIntent}

variable [PyRuntime]

/-- The gates report no reason exactly for a sanctioned request. -/
theorem gates_clean_iff :
    (∃ report, (gates cp fuel now identity leaseId intent).eval v.answers = .ok report ∧
      report.reasons = []) ↔
    ∃ agent evidenceId evidence lease target,
      Sanctioned v cp fuel now identity leaseId intent agent evidenceId evidence lease target := by
  constructor
  · rintro ⟨report, heval, hnil⟩
    obtain ⟨agent, evidenceId, evidence, lease, target, hadmitted⟩ := admitted_of_gates heval hnil
    have hidentity : identityReasons identity (some agent) intent = [] :=
      identityReasons_eq_nil.mpr ⟨hadmitted.authenticated, Option.some_ne_none agent,
        hadmitted.bound⟩
    obtain ⟨-, -, -, -, -, -, -, hrefs, -⟩ := report_of_agent hadmitted.registered hidentity heval
    have hobserved : truthy (agent.observedCapabilities.lookup intent.actionType) =
        some evidenceId := by
      rw [hadmitted.cited] at hrefs
      exact Option.toList_eq_singleton_iff.mp hrefs.symm
    refine ⟨agent, evidenceId, evidence, lease, target, ?_⟩
    exact {
      authenticated := hadmitted.authenticated
      registered := hadmitted.registered
      bound := hadmitted.bound
      observed := hobserved
      evidenced := hadmitted.evidenced
      observation := hadmitted.observation
      leased := hadmitted.leased
      holder := hadmitted.holder
      inScope := hadmitted.inScope
      unrevoked := hadmitted.unrevoked
      unexpired := hadmitted.unexpired
      epoch := hadmitted.epoch
      delegated := (leaseAnswer_clean_iff.mp hadmitted.authority).2
      targeted := hadmitted.targeted
      targetHash := hadmitted.targetHash
      targetAction := hadmitted.targetAction }
  · rintro ⟨agent, evidenceId, evidence, lease, target, hsanctioned⟩
    have hidentity : identityReasons identity (some agent) intent = [] :=
      identityReasons_eq_nil.mpr ⟨hsanctioned.authenticated, Option.some_ne_none agent,
        hsanctioned.bound⟩
    have hcapability : capabilityReasons (some evidence) = [] :=
      capabilityReasons_eq_nil.mpr ⟨evidence, rfl, hsanctioned.observation⟩
    have hevidence : evidenceAnswer v (some evidenceId) = .ok (some evidence) :=
      hsanctioned.evidenced
    have hlease : leaseAnswer v cp fuel now identity intent agent (some lease) = .ok [] :=
      leaseAnswer_clean_iff.mpr ⟨leaseReasons_eq_nil.mpr ⟨hsanctioned.holder, hsanctioned.inScope,
        hsanctioned.unrevoked, hsanctioned.unexpired, hsanctioned.epoch⟩, hsanctioned.delegated⟩
    have htarget : targetReasons intent (some target) = [] :=
      targetReasons_eq_nil.mpr ⟨target, rfl, hsanctioned.targetHash, hsanctioned.targetAction⟩
    rw [gates_eval_of_agent hsanctioned.registered hidentity, materialGates_eval]
    simp only [hsanctioned.observed, hevidence, hsanctioned.leased, hlease, hsanctioned.targeted,
      ok_bind, hcapability, htarget]
    exact ⟨_, rfl, rfl⟩

end Gates

/-! ## What the executor asks of a request -/

/-- An action has a hash exactly when its parameters have a canonical text. -/
theorem syntheticResult_isOk_iff [PyRuntime] {intent : ActionIntent} {runId : String}
    {identity : IdentityContext} {target : MaterialTarget} :
    (∃ resultHash, canonicalHash (syntheticResult runId (actionPayload identity intent target)) =
      .ok resultHash) ↔ Serializable (.dict intent.parameters) := by
  constructor
  · intro hok
    have hpayload := canonicalHash_isOk_iff.mp hok
      ("payload", .dict (actionPayload identity intent target))
      (by simp only [syntheticResult, List.mem_cons, true_or, or_true])
    have hmember : ("parameters", PyValue.dict intent.parameters) ∈
        actionPayload identity intent target := by
      simp only [actionPayload, List.mem_cons, true_or, or_true]
    exact serializable_dict.mp hpayload _ hmember
  · intro hpar
    exact syntheticResult_isOk hpar runId identity target

section Executions

variable [PyRuntime] {σ : Type} {h : Handler RuntimeStore PyError σ} {view : σ → StoreView}

/-- An execution returns ALLOW exactly for a sanctioned request whose parameters have a canonical
    text. -/
theorem execute_allows_iff (himp : Implements h view) (cp : ControlPlane) (fuel : Nat) (draw : Draw)
    (identity : IdentityContext) (leaseId : String) (intent : ActionIntent) (s : σ) :
    (∃ receipt, ((execute cp fuel draw identity leaseId intent).run h s).1 = .ok receipt ∧
      receipt.decision = "ALLOW") ↔
    Serializable (.dict intent.parameters) ∧ ∃ agent evidenceId evidence lease target,
      Sanctioned (view s) cp fuel draw.now identity leaseId intent agent evidenceId evidence lease
        target := by
  rw [← gates_clean_iff]
  constructor
  · rintro ⟨receipt, hrun, hallow⟩
    obtain ⟨report, agent, evidenceId, evidence, lease, target, resultHash, heval, hnil, -, hhash,
      -, -⟩ := execute_allowed himp (Prod.ext hrun rfl) hallow
    exact ⟨syntheticResult_isOk_iff.mp ⟨resultHash, hhash⟩, report, heval, hnil⟩
  · rintro ⟨hpar, report, heval, hnil⟩
    obtain ⟨agent, evidenceId, evidence, lease, target, hadmitted⟩ := admitted_of_gates heval hnil
    obtain ⟨resultHash, hhash⟩ := syntheticResult_isOk hpar draw.runId identity target
    have hsettle := settle_run_allow himp hadmitted.named hnil draw identity leaseId intent s
    rw [hhash] at hsettle
    rw [execute_run himp, heval]
    exact ⟨_, congrArg Prod.fst hsettle, rfl⟩

end Executions

end ControlPlane

end PoiexGoc
