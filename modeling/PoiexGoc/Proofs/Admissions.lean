/-
  ADMISSIONS: what a report without reasons says of the store, for any control plane.

  `Admitted` has one field for each gate, about the records that are stored; provenance is the one
  gate that only some control planes have, so its field is what the lease gates answered.

  An execution that returns ALLOW was admitted, and what it leaves is its action and its receipt
  (`execute_allow`).
-/
import PoiexGoc.Proofs.GateReports

namespace PoiexGoc

open Py Effect

namespace ControlPlane

structure Admitted (v : StoreView) (cp : ControlPlane) (fuel : Nat) (now : DateTime)
    (identity : IdentityContext) (leaseId : String) (intent : ActionIntent) (report : GateReport)
    (agent : AgentRecord) (evidenceId : String) (evidence : EvidenceItem) (lease : AuthorityLease)
    (target : MaterialTarget) : Prop where
  authenticated : identity.authenticated = true
  registered : v.agent identity.agentId = .ok (some agent)
  bound : intent.agentId = identity.agentId
  observed : agent.observedCapabilities.lookup intent.actionType = some evidenceId
  cited : report.evidenceRefs = [evidenceId]
  evidenced : v.evidence evidenceId = .ok (some evidence)
  observation : evidence.sourceType = .runtimeObservation
  leased : v.lease leaseId = .ok (some lease)
  authority : leaseAnswer v cp fuel now identity intent agent (some lease) = .ok []
  holder : lease.agentId = identity.agentId
  inScope : intent.actionType ∈ lease.scope
  unrevoked : ¬ revokedBy lease.revokedAt now
  unexpired : now < lease.expiresAt
  epoch : lease.epoch = agent.currentEpoch
  targeted : v.target intent.targetId = .ok (some target)
  named : report.target = some target
  targetHash : intent.targetHash = target.targetHash
  targetAction : intent.actionType ∈ target.allowedActions

variable {v : StoreView} {cp : ControlPlane} {fuel : Nat} {now : DateTime}
  {identity : IdentityContext} {leaseId : String} {intent : ActionIntent} {report : GateReport}

/-- The lease gates have no reason only for a lease whose own fields have none. -/
theorem leaseReasons_of_answer {agent : AgentRecord} {found : Option AuthorityLease}
    (hanswer : leaseAnswer v cp fuel now identity intent agent found = .ok []) :
    ∃ lease, found = some lease ∧ leaseReasons identity intent agent lease now = [] := by
  cases found with
  | none => cases Except.ok.inj hanswer
  | some lease => exact ⟨lease, rfl, (leaseAnswer_clean_iff.mp hanswer).1⟩

/-- Where provenance is required, an admitted lease has a legitimate chain. -/
theorem Admitted.legitimateChain {agent : AgentRecord} {evidenceId : String}
    {evidence : EvidenceItem} {lease : AuthorityLease} {target : MaterialTarget}
    (hadmitted : Admitted v cp fuel now identity leaseId intent report agent evidenceId evidence
      lease target) (hprov : cp.requireAuthorityProvenance = true) :
    ∃ chain, LegitimateChain v.provenanceRecord lease now cp.trustedAuthorityRoots chain := by
  obtain ⟨chain, hchain, -⟩ := (leaseAnswer_clean_iff.mp hadmitted.authority).2 hprov
  exact ⟨chain, hchain⟩

theorem admitted_of_gates [PyRuntime]
    (heval : (gates cp fuel now identity leaseId intent).eval v.answers = .ok report)
    (hnil : report.reasons = []) :
    ∃ agent evidenceId evidence lease target, Admitted v cp fuel now identity leaseId intent report
      agent evidenceId evidence lease target := by
  cases hagent : v.agent identity.agentId with
  | error e =>
    unfold gates at heval
    rw [Prog.eval_bind] at heval
    obtain ⟨found, hfound, -⟩ := bind_eq_ok.mp heval
    cases hagent.symm.trans hfound
  | ok found =>
    by_cases hidentity : identityReasons identity found intent = []
    · obtain ⟨hauth, hknown, hbound⟩ := identityReasons_eq_nil.mp hidentity
      obtain ⟨agent, rfl⟩ := Option.ne_none_iff_exists'.mp hknown
      obtain ⟨evidence, found, authorityReasons, hevidence, hlease, hauthority, htarget, hrefs,
        hreasons⟩ := report_of_agent hagent hidentity heval
      rw [hreasons] at hnil
      obtain ⟨hrest, htargetNil⟩ := List.append_eq_nil_iff.mp hnil
      obtain ⟨hcapability, rfl⟩ := List.append_eq_nil_iff.mp hrest
      obtain ⟨ev, rfl, hobservation⟩ := capabilityReasons_eq_nil.mp hcapability
      obtain ⟨t, hnamed, hhash, haction⟩ := targetReasons_eq_nil.mp htargetNil
      obtain ⟨lease, rfl, hleaseNil⟩ := leaseReasons_of_answer hauthority
      obtain ⟨hholder, hscope, hrevoked, hexpires, hepoch⟩ := leaseReasons_eq_nil.mp hleaseNil
      -- the capability: an absent id would have answered no evidence
      cases hid : truthy (agent.observedCapabilities.lookup intent.actionType) with
      | none =>
        rw [hid] at hevidence
        cases hevidence
      | some evidenceId =>
        rw [hid] at hevidence hrefs
        refine ⟨agent, evidenceId, ev, lease, t, ?_⟩
        exact {
          authenticated := hauth
          registered := hagent
          bound := hbound
          observed := (truthy_eq_some.mp hid).1
          cited := hrefs
          evidenced := hevidence
          observation := hobservation
          leased := hlease
          authority := hauthority
          holder := hholder
          inScope := hscope
          unrevoked := hrevoked
          unexpired := hexpires
          epoch := hepoch
          targeted := by rw [htarget, hnamed]
          named := hnamed
          targetHash := hhash
          targetAction := haction }
    · rw [gates_eval_of_identity hagent hidentity] at heval
      rw [← Except.ok.inj heval] at hnil
      exact absurd hnil hidentity

variable [PyRuntime] {σ : Type} {h : Handler RuntimeStore PyError σ} {view : σ → StoreView}

/-- An allowed execution was admitted; its state is the one after the action and the receipt. -/
theorem execute_allowed (himp : Implements h view) {draw : Draw} {s s' : σ}
    {receipt : ExecutionReceipt}
    (hrun : (execute cp fuel draw identity leaseId intent).run h s = (.ok receipt, s'))
    (hallow : receipt.decision = "ALLOW") :
    ∃ report agent evidenceId evidence lease target resultHash,
      (gates cp fuel draw.now identity leaseId intent).eval (view s).answers = .ok report ∧
      report.reasons = [] ∧
      Admitted (view s) cp fuel draw.now identity leaseId intent report agent evidenceId evidence
        lease target ∧
      canonicalHash (syntheticResult draw.runId (actionPayload identity intent target)) =
        .ok resultHash ∧
      receipt = allowReceipt draw identity leaseId intent report target resultHash ∧
      s' = (h (.putReceipt receipt)
        (h (.executeSyntheticAction draw.runId (actionPayload identity intent target)) s).2).2 := by
  rcases execute_cases himp cp fuel draw identity leaseId intent s with ⟨e, hraise⟩ |
    ⟨report, -, -, hblock⟩ | ⟨report, target, resultHash, heval, hnamed, hnil, hhash, hdone⟩
  · cases hraise.symm.trans hrun
  · have heq := congrArg Prod.fst (hblock.symm.trans hrun)
    rw [← Except.ok.inj heq] at hallow
    exact absurd hallow (show "BLOCK" ≠ "ALLOW" by decide)
  · obtain ⟨agent, evidenceId, evidence, lease, target', hadmitted⟩ := admitted_of_gates heval hnil
    have hsame : target' = target := Option.some.inj (hadmitted.named.symm.trans hnamed)
    subst hsame
    obtain ⟨hreceipt, hstate⟩ := Prod.mk.inj (hdone.symm.trans hrun)
    obtain rfl := Except.ok.inj hreceipt
    exact ⟨report, agent, evidenceId, evidence, lease, target', resultHash, heval, hnil, hadmitted,
      hhash, rfl, hstate.symm⟩

/-- An allowed execution was admitted, and stores its action and its receipt. -/
theorem execute_allow (himp : Implements h view) {draw : Draw} {s s' : σ}
    {receipt : ExecutionReceipt}
    (hrun : (execute cp fuel draw identity leaseId intent).run h s = (.ok receipt, s'))
    (hallow : receipt.decision = "ALLOW") :
    ∃ report agent evidenceId evidence lease target resultHash,
      Admitted (view s) cp fuel draw.now identity leaseId intent report agent evidenceId evidence
        lease target ∧
      canonicalHash (syntheticResult draw.runId (actionPayload identity intent target)) =
        .ok resultHash ∧
      receipt = allowReceipt draw identity leaseId intent report target resultHash ∧
      view s' = ((view s).putAction draw.runId resultHash).putReceipt receipt := by
  obtain ⟨report, agent, evidenceId, evidence, lease, target, resultHash, -, -, hadmitted, hhash,
    hreceipt, rfl⟩ := execute_allowed himp hrun hallow
  refine ⟨report, agent, evidenceId, evidence, lease, target, resultHash, hadmitted, hhash,
    hreceipt, ?_⟩
  rw [himp.view_putReceipt, himp.view_executed hhash]

end ControlPlane

end PoiexGoc
