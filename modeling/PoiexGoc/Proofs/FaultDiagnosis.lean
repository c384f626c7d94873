/-
  The gates DIAGNOSE: every fault of the stored records is named, and nothing else is.

  1. `Fault` — seven things that can be wrong with the agent, the lease and the target a request
     rests on, in the order of the gates.  `StoreView.damaged` puts any set of them into a store.

  2. Narrowing a lease, revoking it or letting it expire leaves its delegation as it is
     (`LegitimateChain.damaged`), so the verifier adds nothing to the reasons.

  3. `every_fault_is_named` — a request that was sanctioned is refused after any faults, with the
     reasons of exactly these faults.
-/
import PoiexGoc.Proofs.RevocationRaces
import PoiexGoc.Proofs.SanctionedRequests

namespace PoiexGoc

open Py Effect

/-- What can be wrong with the records of a request. -/
inductive Fault where
  | capability
  | scope
  | revoked
  | expired
  | epoch
  | targetHash
  | targetAction
  deriving DecidableEq

namespace Fault

def reason : Fault → String
  | capability => "CAPABILITY_NOT_OBSERVED"
  | scope => "AUTHORITY_OUT_OF_SCOPE"
  | revoked => "AUTHORITY_REVOKED"
  | expired => "AUTHORITY_EXPIRED"
  | epoch => "AUTHORITY_EPOCH_STALE"
  | targetHash => "TARGET_HASH_MISMATCH"
  | targetAction => "TARGET_ACTION_NOT_ALLOWED"

/-- In the order of the gates. -/
def all : List Fault := [capability, scope, revoked, expired, epoch, targetHash, targetAction]

theorem mem_all (fault : Fault) : fault ∈ all := by
  cases fault with
  | _ => decide

/-- The reasons of the faults, in the order of the gates. -/
def reasons (faults : Finset Fault) : List String :=
  all.flatMap fun fault => reasonIf (fault ∈ faults) fault.reason

theorem reasons_eq (faults : Finset Fault) :
    reasons faults = reasonIf (capability ∈ faults) capability.reason ++
      (reasonIf (scope ∈ faults) scope.reason ++ reasonIf (revoked ∈ faults) revoked.reason ++
        reasonIf (expired ∈ faults) expired.reason ++ reasonIf (epoch ∈ faults) epoch.reason) ++
      (reasonIf (targetHash ∈ faults) targetHash.reason ++
        reasonIf (targetAction ∈ faults) targetAction.reason) := by
  simp only [reasons, all, List.flatMap_cons, List.flatMap_nil, List.append_assoc, List.append_nil]

theorem reasons_ne_nil {faults : Finset Fault} (hfaults : faults.Nonempty) : reasons faults ≠ [] := by
  obtain ⟨fault, hmem⟩ := hfaults
  have hin : fault.reason ∈ reasons faults :=
    List.mem_flatMap.mpr ⟨fault, mem_all fault, mem_reasonIf.mpr ⟨hmem, rfl⟩⟩
  exact List.ne_nil_of_mem hin

end Fault

/-- The values the faults put in. -/
structure Damage where
  revokedAt : DateTime
  expiresAt : DateTime
  epoch : Int
  targetHash : String

section Records

variable (faults : Finset Fault) (damage : Damage) (action : String)

def AgentRecord.damaged (agent : AgentRecord) : AgentRecord :=
  { agent with
    observedCapabilities :=
      if .capability ∈ faults then agent.observedCapabilities.erase action
      else agent.observedCapabilities
    currentEpoch := if .epoch ∈ faults then damage.epoch else agent.currentEpoch }

def AuthorityLease.damaged (lease : AuthorityLease) : AuthorityLease :=
  { lease with
    scope := if .scope ∈ faults then lease.scope.erase action else lease.scope
    revokedAt := if .revoked ∈ faults then some damage.revokedAt else lease.revokedAt
    expiresAt := if .expired ∈ faults then damage.expiresAt else lease.expiresAt }

def MaterialTarget.damaged (target : MaterialTarget) : MaterialTarget :=
  { target with
    targetHash := if .targetHash ∈ faults then damage.targetHash else target.targetHash
    allowedActions :=
      if .targetAction ∈ faults then target.allowedActions.erase action
      else target.allowedActions }

/-- The store with the faults in the three records of a request. -/
def StoreView.damaged (v : StoreView) (identity : IdentityContext) (leaseId : String)
    (intent : ActionIntent) (agent : AgentRecord) (lease : AuthorityLease)
    (target : MaterialTarget) : StoreView :=
  { v with
    agent := Function.update v.agent identity.agentId
      (.ok (some (agent.damaged faults damage intent.actionType)))
    lease := Function.update v.lease leaseId
      (.ok (some (lease.damaged faults damage intent.actionType)))
    target := Function.update v.target intent.targetId
      (.ok (some (target.damaged faults damage intent.actionType))) }

end Records

/-- The values are wrong ones for these records. -/
structure Damage.Effective (damage : Damage) (now : DateTime) (lease : AuthorityLease)
    (target : MaterialTarget) : Prop where
  revokedAt : damage.revokedAt ≤ now
  expiresAt : damage.expiresAt ≤ now
  epoch : damage.epoch ≠ lease.epoch
  targetHash : damage.targetHash ≠ target.targetHash

/-- The delegation of a lease does not rest on what the faults change of it. -/
theorem LegitimateChain.damaged {records : String → Option AuthorityProvenanceRecord}
    {lease : AuthorityLease} {now : DateTime} {roots : Finset String}
    {chain : List (String × AuthorityProvenanceRecord)}
    (hchain : LegitimateChain records lease now roots chain) (faults : Finset Fault)
    (damage : Damage) (action : String) :
    LegitimateChain records (lease.damaged faults damage action) now roots chain where
  stored := hchain.stored
  head := by
    obtain ⟨id, r, rest, heq, hid, hne, hsubject, hissuer, hepoch, hscope⟩ := hchain.head
    have hnarrow : (lease.damaged faults damage action).scope ⊆ lease.scope := by
      show (if Fault.scope ∈ faults then lease.scope.erase action else lease.scope) ⊆ lease.scope
      split
      · exact Finset.erase_subset action lease.scope
      · exact Finset.Subset.refl _
    exact ⟨id, r, rest, heq, hid, hne, hsubject, hissuer, hepoch, hnarrow.trans hscope⟩
  linked := hchain.linked
  rooted := hchain.rooted
  valid := hchain.valid

namespace ControlPlane

section Gates

variable {v : StoreView} {cp : ControlPlane} {fuel : Nat} {now : DateTime}
  {identity : IdentityContext} {leaseId : String} {intent : ActionIntent} {agent : AgentRecord}
  {evidenceId : String} {evidence : EvidenceItem} {lease : AuthorityLease}
  {target : MaterialTarget} {damage : Damage}

theorem leaseReasons_damaged
    (hsanctioned : Sanctioned v cp fuel now identity leaseId intent agent evidenceId evidence lease
      target)
    (heffective : damage.Effective now lease target) (faults : Finset Fault) :
    leaseReasons identity intent (agent.damaged faults damage intent.actionType)
        (lease.damaged faults damage intent.actionType) now =
      reasonIf (.scope ∈ faults) Fault.scope.reason ++
        reasonIf (.revoked ∈ faults) Fault.revoked.reason ++
        reasonIf (.expired ∈ faults) Fault.expired.reason ++
        reasonIf (.epoch ∈ faults) Fault.epoch.reason := by
  have hholder : ¬ (lease.damaged faults damage intent.actionType).agentId ≠ identity.agentId :=
    not_not.mpr hsanctioned.holder
  have hscope : intent.actionType ∉ (lease.damaged faults damage intent.actionType).scope ↔
      .scope ∈ faults := by
    show intent.actionType ∉ (if Fault.scope ∈ faults then _ else _) ↔ _
    split
    · rename_i hmem
      exact iff_of_true (Finset.notMem_erase _ _) hmem
    · rename_i hmem
      exact iff_of_false (not_not.mpr hsanctioned.inScope) hmem
  have hrevoked : revokedBy (lease.damaged faults damage intent.actionType).revokedAt now ↔
      .revoked ∈ faults := by
    show revokedBy (if Fault.revoked ∈ faults then _ else _) now ↔ _
    split
    · rename_i hmem
      exact iff_of_true ⟨_, rfl, heffective.revokedAt⟩ hmem
    · rename_i hmem
      exact iff_of_false hsanctioned.unrevoked hmem
  have hexpired : (lease.damaged faults damage intent.actionType).expiresAt ≤ now ↔
      .expired ∈ faults := by
    show (if Fault.expired ∈ faults then _ else _) ≤ now ↔ _
    split
    · rename_i hmem
      exact iff_of_true heffective.expiresAt hmem
    · rename_i hmem
      exact iff_of_false (Int.not_le.mpr hsanctioned.unexpired) hmem
  have hepoch : (lease.damaged faults damage intent.actionType).epoch ≠
      (agent.damaged faults damage intent.actionType).currentEpoch ↔ .epoch ∈ faults := by
    show lease.epoch ≠ (if Fault.epoch ∈ faults then _ else _) ↔ _
    split
    · rename_i hmem
      exact iff_of_true heffective.epoch.symm hmem
    · rename_i hmem
      exact iff_of_false (not_not.mpr hsanctioned.epoch) hmem
  rw [leaseReasons, reasonIf_congr hscope, reasonIf_congr hrevoked, reasonIf_congr hexpired,
    reasonIf_congr hepoch, reasonIf_eq_nil.mpr hholder]
  rfl

theorem targetReasons_damaged
    (hsanctioned : Sanctioned v cp fuel now identity leaseId intent agent evidenceId evidence lease
      target)
    (heffective : damage.Effective now lease target) (faults : Finset Fault) :
    targetReasons intent (some (target.damaged faults damage intent.actionType)) =
      reasonIf (.targetHash ∈ faults) Fault.targetHash.reason ++
        reasonIf (.targetAction ∈ faults) Fault.targetAction.reason := by
  have hhash : intent.targetHash ≠ (target.damaged faults damage intent.actionType).targetHash ↔
      .targetHash ∈ faults := by
    show intent.targetHash ≠ (if Fault.targetHash ∈ faults then _ else _) ↔ _
    rw [hsanctioned.targetHash]
    split
    · rename_i hmem
      exact iff_of_true heffective.targetHash.symm hmem
    · rename_i hmem
      exact iff_of_false (not_not.mpr rfl) hmem
  have haction : intent.actionType ∉ (target.damaged faults damage intent.actionType).allowedActions ↔
      .targetAction ∈ faults := by
    show intent.actionType ∉ (if Fault.targetAction ∈ faults then _ else _) ↔ _
    split
    · rename_i hmem
      exact iff_of_true (Finset.notMem_erase _ _) hmem
    · rename_i hmem
      exact iff_of_false (not_not.mpr hsanctioned.targetAction) hmem
  rw [targetReasons, reasonIf_congr hhash, reasonIf_congr haction]
  rfl

/-- The capability gate misses what it looks for exactly when it was taken away. -/
theorem capability_damaged
    (hsanctioned : Sanctioned v cp fuel now identity leaseId intent agent evidenceId evidence lease
      target) (faults : Finset Fault) :
    ∃ found, evidenceAnswer (v.damaged faults damage identity leaseId intent agent lease target)
        (truthy ((agent.damaged faults damage intent.actionType).observedCapabilities.lookup
          intent.actionType)) = .ok found ∧
      capabilityReasons found = reasonIf (.capability ∈ faults) Fault.capability.reason := by
  by_cases hmem : Fault.capability ∈ faults
  · have hnone : (agent.damaged faults damage intent.actionType).observedCapabilities.lookup
        intent.actionType = none := by
      show (if Fault.capability ∈ faults then _ else _ : Dict String).lookup _ = none
      rw [if_pos hmem, Finmap.lookup_erase]
    rw [hnone, reasonIf, if_pos hmem]
    exact ⟨none, rfl, rfl⟩
  · have hsame : (agent.damaged faults damage intent.actionType).observedCapabilities =
        agent.observedCapabilities := if_neg hmem
    rw [hsame, hsanctioned.observed, reasonIf, if_neg hmem]
    exact ⟨some evidence, hsanctioned.evidenced,
      capabilityReasons_eq_nil.mpr ⟨evidence, rfl, hsanctioned.observation⟩⟩

theorem leaseAnswer_damaged
    (hsanctioned : Sanctioned v cp fuel now identity leaseId intent agent evidenceId evidence lease
      target)
    (heffective : damage.Effective now lease target) (faults : Finset Fault) :
    leaseAnswer (v.damaged faults damage identity leaseId intent agent lease target) cp fuel now
        identity intent (agent.damaged faults damage intent.actionType)
        (some (lease.damaged faults damage intent.actionType)) =
      .ok (reasonIf (.scope ∈ faults) Fault.scope.reason ++
        reasonIf (.revoked ∈ faults) Fault.revoked.reason ++
        reasonIf (.expired ∈ faults) Fault.expired.reason ++
        reasonIf (.epoch ∈ faults) Fault.epoch.reason) := by
  rw [← leaseReasons_damaged hsanctioned heffective faults, leaseAnswer]
  by_cases hprov : cp.requireAuthorityProvenance = true
  · obtain ⟨chain, hchain, hlength⟩ := hsanctioned.delegated hprov
    obtain ⟨result, hverify, hnil⟩ := verify_clean_iff.mpr
      ⟨chain, hchain.damaged faults damage intent.actionType, hlength⟩
    rw [if_pos hprov]
    show (verifyAuthorityProvenance v.provenance _ _ _ _ >>= _) = _
    rw [hverify, ok_bind, hnil, List.append_nil]
    rfl
  · rw [if_neg hprov]

variable [PyRuntime]

/-- The gates over the damaged records. -/
theorem gates_damaged
    (hsanctioned : Sanctioned v cp fuel now identity leaseId intent agent evidenceId evidence lease
      target)
    (heffective : damage.Effective now lease target) (faults : Finset Fault) :
    ∃ report, (gates cp fuel now identity leaseId intent).eval
        (v.damaged faults damage identity leaseId intent agent lease target).answers = .ok report ∧
      report.reasons = Fault.reasons faults := by
  have hidentity : identityReasons identity (some (agent.damaged faults damage intent.actionType))
      intent = [] :=
    identityReasons_eq_nil.mpr ⟨hsanctioned.authenticated, Option.some_ne_none _, hsanctioned.bound⟩
  have hagent : (v.damaged faults damage identity leaseId intent agent lease target).agent
      identity.agentId = .ok (some (agent.damaged faults damage intent.actionType)) :=
    Function.update_self _ _ _
  have hlease : (v.damaged faults damage identity leaseId intent agent lease target).lease leaseId =
      .ok (some (lease.damaged faults damage intent.actionType)) := Function.update_self _ _ _
  have htarget : (v.damaged faults damage identity leaseId intent agent lease target).target
      intent.targetId = .ok (some (target.damaged faults damage intent.actionType)) :=
    Function.update_self _ _ _
  have hevidence : ∃ found, evidenceAnswer
        (v.damaged faults damage identity leaseId intent agent lease target)
        (truthy ((agent.damaged faults damage intent.actionType).observedCapabilities.lookup
          intent.actionType)) = .ok found ∧
      capabilityReasons found = reasonIf (.capability ∈ faults) Fault.capability.reason :=
    capability_damaged hsanctioned faults
  obtain ⟨found, hfound, hcapability⟩ := hevidence
  rw [gates_eval_of_agent hagent hidentity, materialGates_eval]
  simp only [hfound, hlease, leaseAnswer_damaged hsanctioned heffective faults, htarget, ok_bind]
  refine ⟨_, rfl, ?_⟩
  rw [Fault.reasons_eq, ← hcapability, ← targetReasons_damaged hsanctioned heffective faults]

end Gates

end ControlPlane

section Executions

variable [PyRuntime] {σ : Type} {h : Handler RuntimeStore PyError σ} {view : σ → StoreView}

/-- Every fault is named, and nothing else.  Let a request be sanctioned by what a store holds, and
    let any faults be put into the agent, the lease and the target it rests on.  Then the request is
    refused, its reasons are those of the faults in the order of the gates, and the one thing that is
    stored is its BLOCK receipt. -/
theorem every_fault_is_named (himp : Implements h view) (cp : ControlPlane) (fuel : Nat)
    (draw : Draw) (identity : IdentityContext) (leaseId : String) (intent : ActionIntent)
    {agent : AgentRecord} {evidenceId : String} {evidence : EvidenceItem} {lease : AuthorityLease}
    {target : MaterialTarget} {v : StoreView}
    (hsanctioned : ControlPlane.Sanctioned v cp fuel draw.now identity leaseId intent agent
      evidenceId evidence lease target)
    {damage : Damage} (heffective : damage.Effective draw.now lease target) {faults : Finset Fault}
    (hfaults : faults.Nonempty) {s : σ}
    (hdamaged : view s = v.damaged faults damage identity leaseId intent agent lease target) :
    ∃ receipt, (cp.execute fuel draw identity leaseId intent).run h s =
        (.ok receipt, (h (.putReceipt receipt) s).2) ∧
      receipt.decision = "BLOCK" ∧ receipt.reasons = Fault.reasons faults ∧
      view (h (.putReceipt receipt) s).2 = (view s).putReceipt receipt := by
  obtain ⟨report, heval, hreasons⟩ := ControlPlane.gates_damaged hsanctioned heffective faults
  have hblock : report.reasons ≠ [] := by
    rw [hreasons]
    exact Fault.reasons_ne_nil hfaults
  refine ⟨ControlPlane.blockReceipt draw identity leaseId intent report, ?_, rfl, hreasons,
    himp.view_putReceipt _ s⟩
  rw [ControlPlane.execute_run himp, hdamaged, heval]
  exact ControlPlane.settle_run_block himp (.inr hblock) draw identity leaseId intent s

end Executions

/-- The seeded request, after its lease was revoked and its agent's epoch raised. -/
theorem stale_and_revoked_request_is_told_so :
    ∃ (agent : AgentRecord) (lease : AuthorityLease) (target : MaterialTarget),
      let damage : Damage :=
        ⟨seededCall.draw.now, seededCall.draw.now, lease.epoch + 1, target.targetHash ++ "0"⟩
      let faults : Finset Fault := {.revoked, .epoch}
      let s := (demoStore.view seededClient).damaged faults damage seededCall.identity
        seededCall.leaseId seededCall.intent agent lease target
      ∃ receipt, (seededCall.program.run StoreView.handle s).1 = .ok receipt ∧
        receipt.decision = "BLOCK" ∧
        receipt.reasons = ["AUTHORITY_REVOKED", "AUTHORITY_EPOCH_STALE"] := by
  have hallowed : (seededCall.program.run demoStore.handle seededClient).1.map
      ExecutionReceipt.decision = .ok "ALLOW" := by decide +kernel
  obtain ⟨receipt, hrun, hallow⟩ : ∃ receipt,
      (seededCall.program.run demoStore.handle seededClient).1 = .ok receipt ∧
        receipt.decision = "ALLOW" := by
    revert hallowed
    cases (seededCall.program.run demoStore.handle seededClient).1 with
    | error e => exact fun h => nomatch h
    | ok receipt => exact fun h => ⟨receipt, rfl, Except.ok.inj h⟩
  obtain ⟨-, agent, evidenceId, evidence, lease, target, hsanctioned⟩ :=
    (ControlPlane.execute_allows_iff (firestoreStore_implements demoStore) seededCall.cp
      seededCall.fuel seededCall.draw seededCall.identity seededCall.leaseId seededCall.intent
      seededClient).mp ⟨receipt, hrun, hallow⟩
  refine ⟨agent, lease, target, ?_⟩
  intro damage faults s
  have heffective : damage.Effective seededCall.draw.now lease target :=
    { revokedAt := Int.le_refl _
      expiresAt := Int.le_refl _
      epoch := by
        show lease.epoch + 1 ≠ lease.epoch
        omega
      targetHash := fun heq => absurd (congrArg String.length heq) (by
        rw [String.length_append]
        show target.targetHash.length + 1 ≠ target.targetHash.length
        omega) }
  obtain ⟨blocked, hblocked, hdecision, hreasons, -⟩ := every_fault_is_named storeView_implements
    seededCall.cp seededCall.fuel seededCall.draw seededCall.identity seededCall.leaseId
    seededCall.intent hsanctioned heffective (Finset.insert_nonempty _ _) (s := s) rfl
  exact ⟨blocked, congrArg Prod.fst hblocked, hdecision, hreasons.trans (by decide)⟩

end PoiexGoc
