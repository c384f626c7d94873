/-
  COMPLETE MEDIATION: no action without every gate, for any store.

  1. `authorized_of_admitted` — an admission means that every fact the gates ask about holds of what
     is stored (`Authorized`).  The one fact no gate checks is that every ancestor
     of the delegation chain has the action in its scope; it follows along the chain
     (`LegitimateChain.scope_subset`), since each record's scope is contained in its parent's.

  2. `Backend.actionDoc` — what a write does to the stored actions.

  3. `allow_requires_authorization` — the two together, on either backend.
-/
import PoiexGoc.Proofs.Admissions
import PoiexGoc.Proofs.GateReports
import PoiexGoc.Proofs.StoreRefinement
import PoiexGoc.Runtime.CloudDemo

namespace PoiexGoc

open Py Effect

/-- Along a legitimate chain the lease's scope is contained in every record's scope.  Induction
    from the head: the first record's scope contains the lease's, each later one its child's. -/
theorem LegitimateChain.scope_subset {records : String → Option AuthorityProvenanceRecord}
    {lease : AuthorityLease} {now : DateTime} {roots : Finset String}
    {chain : List (String × AuthorityProvenanceRecord)}
    (hchain : LegitimateChain records lease now roots chain) :
    ∀ e ∈ chain, lease.scope ⊆ e.2.scope := by
  have hinherit : ∀ (rest : List (String × AuthorityProvenanceRecord))
      (e : String × AuthorityProvenanceRecord), lease.scope ⊆ e.2.scope →
      (e :: rest).IsChain (fun e e' =>
        e.2.parentProvenanceId = some e'.1 ∧ DelegatedBy e.2 e'.2) →
      ∀ e' ∈ e :: rest, lease.scope ⊆ e'.2.scope := by
    intro rest
    induction rest with
    | nil =>
      intro e he _ e' he'
      rw [List.mem_singleton.mp he']
      exact he
    | cons next rest ih =>
      intro e he hlinked e' he'
      rw [List.isChain_cons_cons] at hlinked
      have hnext : lease.scope ⊆ next.2.scope := he.trans hlinked.1.2.2
      rcases List.mem_cons.mp he' with rfl | he'
      · exact he
      · exact ih next hnext hlinked.2 e' he'
  obtain ⟨id, r, rest, rfl, -, -, hback⟩ := hchain.head
  exact hinherit rest (id, r) hback.2.2.2 hchain.linked

/-- What an allowed execution presupposes of the store, with the stored records it names. -/
structure Authorized (v : StoreView) (roots : Finset String) (now : DateTime)
    (identity : IdentityContext) (leaseId : String) (intent : ActionIntent) (agent : AgentRecord)
    (evidence : EvidenceItem) (lease : AuthorityLease)
    (chain : List (String × AuthorityProvenanceRecord)) (target : MaterialTarget) : Prop where
  authenticated : identity.authenticated = true
  registered : v.agent identity.agentId = .ok (some agent)
  bound : intent.agentId = identity.agentId
  observed : ∃ evidenceId, agent.observedCapabilities.lookup intent.actionType = some evidenceId ∧
    v.evidence evidenceId = .ok (some evidence)
  observation : evidence.sourceType = .runtimeObservation
  leased : v.lease leaseId = .ok (some lease)
  holder : lease.agentId = identity.agentId
  epoch : lease.epoch = agent.currentEpoch
  unexpired : now < lease.expiresAt
  unrevoked : ¬ revokedBy lease.revokedAt now
  inScope : intent.actionType ∈ lease.scope
  delegated : LegitimateChain v.provenanceRecord lease now roots chain
  attenuated : ∀ e ∈ chain, v.provenance e.1 = .ok (some e.2) ∧ intent.actionType ∈ e.2.scope
  targeted : v.target intent.targetId = .ok (some target)
  targetHash : intent.targetHash = target.targetHash
  targetAction : intent.actionType ∈ target.allowedActions

/-- The control plane of the claim: provenance is required. -/
def ControlPlane.requiring (roots : Finset String) : ControlPlane :=
  { requireAuthorityProvenance := true, trustedAuthorityRoots := roots }

/-- Where provenance is required, an admission has a legitimate chain behind its lease. -/
theorem authorized_of_admitted {v : StoreView} {roots : Finset String} {fuel : Nat}
    {now : DateTime} {identity : IdentityContext} {leaseId : String} {intent : ActionIntent}
    {report : ControlPlane.GateReport} {agent : AgentRecord} {evidenceId : String}
    {evidence : EvidenceItem} {lease : AuthorityLease} {target : MaterialTarget}
    (hadmitted : ControlPlane.Admitted v (.requiring roots) fuel now identity leaseId intent report
      agent evidenceId evidence lease target) :
    ∃ chain, Authorized v roots now identity leaseId intent agent evidence lease chain target := by
  obtain ⟨chain, hchain⟩ := hadmitted.legitimateChain rfl
  refine ⟨chain, ?_⟩
  exact {
    authenticated := hadmitted.authenticated
    registered := hadmitted.registered
    bound := hadmitted.bound
    observed := ⟨evidenceId, hadmitted.observed, hadmitted.evidenced⟩
    observation := hadmitted.observation
    leased := hadmitted.leased
    holder := hadmitted.holder
    epoch := hadmitted.epoch
    unexpired := hadmitted.unexpired
    unrevoked := hadmitted.unrevoked
    inScope := hadmitted.inScope
    delegated := hchain
    attenuated := fun e he => ⟨StoreView.provenance_eq_ok (hchain.stored e he),
      hchain.scope_subset e he hadmitted.inScope⟩
    targeted := hadmitted.targeted
    targetHash := hadmitted.targetHash
    targetAction := hadmitted.targetAction }

section Mediation

variable [PyRuntime]

/-- What is stored as the action of a run: the result dict, or the document. -/
def Backend.actionDoc : Backend → String → Option PyValue
  | .memory s, runId => (s.syntheticActions.lookup runId).map PyValue.dict
  | .firestore fs c, runId => c.docs.lookup (fs.docKey "synthetic_actions" runId)

/-- Storing a receipt stores no action. -/
theorem Backend.actionDoc_putReceipt (s : Backend) (receipt : ExecutionReceipt) :
    (Backend.handle (.putReceipt receipt) s).2.actionDoc = s.actionDoc := by
  cases s with
  | memory s => rfl
  | firestore fs c =>
    funext runId
    have hne : fs.docKey "synthetic_actions" runId ≠ fs.docKey "receipts" receipt.receiptId :=
      fs.docKey_ne_of_kind (by decide) _ _
    exact Finmap.lookup_insert_of_ne _ hne

/-- An executed action is stored under its run. -/
theorem Backend.actionDoc_executed (s : Backend) {runId resultHash : String} {payload : PyDict}
    (hhash : canonicalHash (syntheticResult runId payload) = .ok resultHash) :
    ((Backend.handle (.executeSyntheticAction runId payload) s).2.actionDoc runId).isSome := by
  cases s with
  | memory s =>
    simp only [Backend.handle, MemoryStore.handle, MemoryStore.executeSyntheticAction, hhash,
      Backend.actionDoc, Finmap.lookup_insert, Option.map_some, Option.isSome_some]
  | firestore fs c =>
    simp only [Backend.handle, FirestoreStore.handle, FirestoreStore.executeSyntheticAction, hhash,
      FirestoreStore.put, Backend.actionDoc, Finmap.lookup_insert, Option.isSome_some]

/-- The actions of other runs stay what they are. -/
theorem Backend.actionDoc_executed_of_ne (s : Backend) {runId runId' : String} (payload : PyDict)
    (hne : runId' ≠ runId) :
    (Backend.handle (.executeSyntheticAction runId payload) s).2.actionDoc runId' =
      s.actionDoc runId' := by
  cases s with
  | memory s =>
    simp only [Backend.handle, MemoryStore.handle, MemoryStore.executeSyntheticAction]
    cases canonicalHash (syntheticResult runId payload) with
    | error e => rfl
    | ok resultHash =>
      exact congrArg (Option.map PyValue.dict)
        (Finmap.lookup_insert_of_ne s.syntheticActions hne)
  | firestore fs c =>
    simp only [Backend.handle, FirestoreStore.handle, FirestoreStore.executeSyntheticAction]
    cases canonicalHash (syntheticResult runId payload) with
    | error e => rfl
    | ok resultHash =>
      have hkey : fs.docKey "synthetic_actions" runId' ≠ fs.docKey "synthetic_actions" runId :=
        fun heq => hne (fs.docKey_inj.mp heq).2
      exact Finmap.lookup_insert_of_ne _ hkey

/-- Complete mediation with scope attenuation.  Whatever the store holds: an execution that returns
    ALLOW, or changes any stored action, returned ALLOW, stored the action of its own run, and was
    authorized by what the store held when it started. -/
theorem allow_requires_authorization (s : Backend) (roots : Finset String) (fuel : Nat)
    (draw : Draw) (identity : IdentityContext) (leaseId : String) (intent : ActionIntent)
    (hout : (∃ receipt, ((ControlPlane.execute (.requiring roots) fuel draw identity leaseId
        intent).run Backend.handle s).1 = .ok receipt ∧ receipt.decision = "ALLOW") ∨
      ((ControlPlane.execute (.requiring roots) fuel draw identity leaseId intent).run
        Backend.handle s).2.actionDoc ≠ s.actionDoc) :
    (∃ receipt, ((ControlPlane.execute (.requiring roots) fuel draw identity leaseId intent).run
        Backend.handle s).1 = .ok receipt ∧ receipt.decision = "ALLOW") ∧
    (((ControlPlane.execute (.requiring roots) fuel draw identity leaseId intent).run
      Backend.handle s).2.actionDoc draw.runId).isSome ∧
    ∃ agent evidence lease chain target,
      Authorized s.view roots draw.now identity leaseId intent agent evidence lease chain target := by
  rcases ControlPlane.execute_cases backend_implements (.requiring roots) fuel draw identity leaseId
    intent s with ⟨e, hrun⟩ | ⟨report, -, -, hrun⟩ |
      ⟨report, target, resultHash, heval, -, hnil, hhash, hrun⟩
  · -- raised: no receipt, and the store is as it was
    rw [hrun] at hout
    rcases hout with ⟨receipt, hreceipt, -⟩ | hchanged
    · cases hreceipt
    · exact absurd rfl hchanged
  · -- blocked: the receipt says BLOCK, and only the receipt was stored
    rw [hrun] at hout
    rcases hout with ⟨receipt, hreceipt, hallow⟩ | hchanged
    · rw [← Except.ok.inj hreceipt] at hallow
      exact absurd hallow (by decide : "BLOCK" ≠ "ALLOW")
    · exact absurd (s.actionDoc_putReceipt _) hchanged
  · obtain ⟨agent, evidenceId, evidence, lease, target', hadmitted⟩ :=
      ControlPlane.admitted_of_gates heval hnil
    obtain ⟨chain, hauthorized⟩ := authorized_of_admitted hadmitted
    rw [hrun, Backend.actionDoc_putReceipt]
    exact ⟨⟨_, rfl, rfl⟩, s.actionDoc_executed hhash,
      ⟨agent, evidence, lease, chain, target', hauthorized⟩⟩

end Mediation

/-- The seeded demo store authorizes the demo action. -/
theorem demo_allow_is_authorized :
    let now : DateTime := ⟨1787838300000000, 0⟩
    let s := ((CloudDemo.bootstrapSyntheticMission now "s1").run Backend.handle (.memory {})).2
    let intent : ActionIntent :=
      { intentId := "intent-s1", agentId := "agent-maint-01"
        actionType := "issue_synthetic_work_order", targetId := "pump-A"
        targetHash := "4cfbd96418f23a1a2237794cb05f31e0d162e8abad0cf2b9f10e2db7830c176f"
        parameters := [("work_order", .str "WO-1")], requestedAt := now, intentHash := "" }
    ∃ agent evidence lease chain target, Authorized s.view {"plant-owner-root"} now
      (CloudDemo.identity "s1") "lease-001" intent agent evidence lease chain target := by
  intro now s intent
  let draw : Draw := ⟨now, now, "1", "2", "3"⟩
  have hdecision : (((ControlPlane.execute (.requiring {"plant-owner-root"}) 2 draw
      (CloudDemo.identity "s1") "lease-001" intent).run Backend.handle s).1.map
        ExecutionReceipt.decision) = .ok "ALLOW" := by decide +kernel
  refine (allow_requires_authorization s {"plant-owner-root"} 2 draw (CloudDemo.identity "s1")
    "lease-001" intent (Or.inl ?_)).2.2
  cases hrun : ((ControlPlane.execute (.requiring {"plant-owner-root"}) 2 draw
      (CloudDemo.identity "s1") "lease-001" intent).run Backend.handle s).1 with
  | error e => rw [hrun] at hdecision; cases hdecision
  | ok receipt => rw [hrun] at hdecision; exact ⟨receipt, rfl, Except.ok.inj hdecision⟩

end PoiexGoc
