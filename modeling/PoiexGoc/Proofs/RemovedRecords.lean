/-
  REMOVED RECORDS: which missing predecessors of an ALLOW receipt its replay notices.

  1. `Backend.remove` takes one record out of a store; in the view it is one answer that becomes
     "not there" (`view_remove`).

  2. `BasedOn` lists the records an admission has consulted, the delegation lineage included.

  3. `missing_predecessor_fails_iff` — the replay fails for each of them that the receipt cites by a
     non-empty id.  A provenance record is never cited, so its loss goes unnoticed.
-/
import PoiexGoc.Proofs.FreshReplays
import PoiexGoc.Proofs.Mediation

namespace PoiexGoc

open Py Effect

/-- The record of a kind that is stored under an id. -/
inductive RecordRef where
  | agent (agentId : String)
  | lease (leaseId : String)
  | provenance (provenanceId : String)
  | evidence (evidenceId : String)
  | target (targetId : String)
  | action (runId : String)

/-! ## Removing a record -/

def MemoryStore.remove (s : MemoryStore) : RecordRef → MemoryStore
  | .agent agentId => { s with agents := s.agents.erase agentId }
  | .lease leaseId => { s with leases := s.leases.erase leaseId }
  | .provenance provenanceId =>
    { s with authorityProvenance := s.authorityProvenance.erase provenanceId }
  | .evidence evidenceId => { s with evidence := s.evidence.erase evidenceId }
  | .target targetId => { s with targets := s.targets.erase targetId }
  | .action runId => { s with syntheticActions := s.syntheticActions.erase runId }

/-- The document of a record. -/
def RecordRef.docKey (fs : FirestoreStore) : RecordRef → String × String
  | agent agentId => fs.docKey "agents" agentId
  | lease leaseId => fs.docKey "leases" leaseId
  | provenance provenanceId => fs.docKey "authority_provenance" provenanceId
  | evidence evidenceId => fs.docKey "evidence" evidenceId
  | target targetId => fs.docKey "targets" targetId
  | action runId => fs.docKey "synthetic_actions" runId

def Backend.remove (ref : RecordRef) : Backend → Backend
  | .memory s => .memory (s.remove ref)
  | .firestore fs c => .firestore fs { c with docs := c.docs.erase (ref.docKey fs) }

/-- The answer for the record becomes that there is none. -/
def StoreView.forget (v : StoreView) : RecordRef → StoreView
  | .agent agentId => { v with agent := Function.update v.agent agentId (.ok none) }
  | .lease leaseId => { v with lease := Function.update v.lease leaseId (.ok none) }
  | .provenance provenanceId =>
    { v with provenance := Function.update v.provenance provenanceId (.ok none) }
  | .evidence evidenceId => { v with evidence := Function.update v.evidence evidenceId (.ok none) }
  | .target targetId => { v with target := Function.update v.target targetId (.ok none) }
  | .action runId => { v with action := Function.update v.action runId fun _ => .ok false }

theorem lookup_erase_eq_update {V : Type} (m : Dict V) (key : String) :
    (fun id => (.ok ((m.erase key).lookup id) : Except PyError (Option V))) =
      Function.update (fun id => .ok (m.lookup id)) key (.ok none) := by
  funext id
  by_cases hid : id = key
  · subst hid
    rw [Finmap.lookup_erase, Function.update_self]
  · rw [Finmap.lookup_erase_ne hid, Function.update_of_ne hid]

namespace FirestoreStore

theorem get_erase_self (fs : FirestoreStore) (kind docId : String) (c : FirestoreClient) :
    fs.get kind docId { c with docs := c.docs.erase (fs.docKey kind docId) } = .ok none := by
  unfold get
  simp only [Finmap.lookup_erase]

theorem get_erase_of_ne (fs : FirestoreStore) {kind docId : String} {key : String × String}
    (c : FirestoreClient) (hne : fs.docKey kind docId ≠ key) :
    fs.get kind docId { c with docs := c.docs.erase key } = fs.get kind docId c := by
  unfold get
  simp only [Finmap.lookup_erase_ne hne]

theorem getDecoded_erase_of_kind {α : Type} (fs : FirestoreStore) {kind kind' : String}
    (docId docId' : String) (fromDoc : PyValue → Except PyError α) (c : FirestoreClient)
    (hkind : kind' ≠ kind) :
    fs.getDecoded kind' docId' fromDoc { c with docs := c.docs.erase (fs.docKey kind docId) } =
      fs.getDecoded kind' docId' fromDoc c := by
  rw [getDecoded, get_erase_of_ne _ _ (fs.docKey_ne_of_kind hkind _ _), getDecoded]

theorem getDecoded_erase {α : Type} (fs : FirestoreStore) (kind docId : String)
    (fromDoc : PyValue → Except PyError α) (c : FirestoreClient) :
    (fun id => fs.getDecoded kind id fromDoc
        { c with docs := c.docs.erase (fs.docKey kind docId) }) =
      Function.update (fun id => fs.getDecoded kind id fromDoc c) docId (.ok none) := by
  funext id
  by_cases hid : id = docId
  · subst hid
    rw [Function.update_self, getDecoded, get_erase_self]
    rfl
  · rw [Function.update_of_ne hid, getDecoded, get_erase_of_ne, getDecoded]
    exact fun h => hid (fs.docKey_inj.mp h).2

section Actions

variable [PyRuntime]

theorem hasSyntheticAction_erase_of_kind (fs : FirestoreStore) {kind : String}
    (docId runId expectedHash : String) (c : FirestoreClient)
    (hkind : "synthetic_actions" ≠ kind) :
    fs.hasSyntheticAction runId expectedHash
        { c with docs := c.docs.erase (fs.docKey kind docId) } =
      fs.hasSyntheticAction runId expectedHash c := by
  rw [hasSyntheticAction, get_erase_of_ne _ _ (fs.docKey_ne_of_kind hkind _ _), hasSyntheticAction]

theorem hasSyntheticAction_erase (fs : FirestoreStore) (runId : String) (c : FirestoreClient) :
    (fun id expected => fs.hasSyntheticAction id expected
        { c with docs := c.docs.erase (fs.docKey "synthetic_actions" runId) }) =
      Function.update (fs.view c).action runId fun _ => .ok false := by
  funext id expected
  by_cases hid : id = runId
  · subst hid
    rw [Function.update_self, hasSyntheticAction, get_erase_self]
    rfl
  · rw [Function.update_of_ne hid, hasSyntheticAction, get_erase_of_ne]
    · rfl
    · exact fun h => hid (fs.docKey_inj.mp h).2

end Actions

end FirestoreStore

section Views

variable [PyRuntime]

theorem MemoryStore.view_remove (s : MemoryStore) (ref : RecordRef) :
    (s.remove ref).view = s.view.forget ref := by
  cases ref with
  | agent agentId =>
    exact congrArg (fun f => { s.view with agent := f }) (lookup_erase_eq_update s.agents agentId)
  | lease leaseId =>
    exact congrArg (fun f => { s.view with lease := f }) (lookup_erase_eq_update s.leases leaseId)
  | provenance provenanceId =>
    exact congrArg (fun f => { s.view with provenance := f })
      (lookup_erase_eq_update s.authorityProvenance provenanceId)
  | evidence evidenceId =>
    exact congrArg (fun f => { s.view with evidence := f })
      (lookup_erase_eq_update s.evidence evidenceId)
  | target targetId =>
    exact congrArg (fun f => { s.view with target := f }) (lookup_erase_eq_update s.targets targetId)
  | action runId =>
    refine congrArg (fun f => { s.view with action := f }) ?_
    funext id expected
    show MemoryStore.hasSyntheticAction _ id expected = _
    unfold MemoryStore.hasSyntheticAction
    simp only [MemoryStore.remove]
    by_cases hid : id = runId
    · subst hid
      rw [Function.update_self, Finmap.lookup_erase]
    · rw [Function.update_of_ne hid, Finmap.lookup_erase_ne hid]
      rfl

/-- In the view one answer changes, on either store. -/
theorem view_remove (s : Backend) (ref : RecordRef) : (s.remove ref).view = s.view.forget ref := by
  cases s with
  | memory s => exact s.view_remove ref
  | firestore fs c =>
    cases ref with
    | action runId =>
      have hown := fs.hasSyntheticAction_erase runId c
      simp (disch := decide) only [Backend.remove, Backend.view, RecordRef.docKey,
        StoreView.forget, FirestoreStore.view, FirestoreStore.getDecoded_erase_of_kind] at hown ⊢
      rw [hown]
    | _ =>
      simp (disch := decide) only [Backend.remove, Backend.view, RecordRef.docKey,
        StoreView.forget, FirestoreStore.view, FirestoreStore.getDecoded_erase_of_kind,
        FirestoreStore.hasSyntheticAction_erase_of_kind, FirestoreStore.getDecoded_erase]

end Views

/-! ## What a replay notices -/

/-- The records an admission has consulted: those its gates looked up, the delegation lineage, and
    the action it led to. -/
inductive BasedOn (draw : Draw) (identity : IdentityContext) (leaseId : String)
    (intent : ActionIntent) (agent : AgentRecord)
    (chain : List (String × AuthorityProvenanceRecord)) : RecordRef → Prop
  | agent : BasedOn draw identity leaseId intent agent chain (.agent identity.agentId)
  | lease : BasedOn draw identity leaseId intent agent chain (.lease leaseId)
  | evidence {evidenceId : String}
      (hobserved : agent.observedCapabilities.lookup intent.actionType = some evidenceId) :
      BasedOn draw identity leaseId intent agent chain (.evidence evidenceId)
  | target : BasedOn draw identity leaseId intent agent chain (.target intent.targetId)
  | provenance {e : String × AuthorityProvenanceRecord} (he : e ∈ chain) :
      BasedOn draw identity leaseId intent agent chain (.provenance e.1)
  | action : BasedOn draw identity leaseId intent agent chain (.action draw.runId)

/-- A receipt cites no provenance record, and an empty id is not looked up. -/
def RecordRef.Cited : RecordRef → Prop
  | .provenance _ => False
  | .lease leaseId => leaseId ≠ ""
  | .target targetId => targetId ≠ ""
  | .agent _ | .evidence _ | .action _ => True

/-- An answer that a record is not there is still an answer. -/
theorem exists_forget {V : Type} {f : String → Except PyError (Option V)} {id : String}
    (hid : ∃ found, f id = .ok found) (key : String) :
    ∃ found, Function.update f key (.ok none) id = .ok found := by
  by_cases heq : id = key
  · rw [heq, Function.update_self]
    exact ⟨none, rfl⟩
  · rw [Function.update_of_ne heq]
    exact hid

theorem legible_forget {v : StoreView} {receipt : ExecutionReceipt}
    (hlegible : ControlPlane.Legible v receipt) (ref : RecordRef) :
    ControlPlane.Legible (v.forget ref) receipt := by
  obtain ⟨hagent, hlease, hevidence, htarget, haction⟩ := hlegible
  cases ref with
  | agent agentId => exact ⟨exists_forget hagent _, hlease, hevidence, htarget, haction⟩
  | lease leaseId =>
    exact ⟨hagent, fun id hid => exists_forget (hlease id hid) _, hevidence, htarget, haction⟩
  | provenance provenanceId => exact ⟨hagent, hlease, hevidence, htarget, haction⟩
  | evidence evidenceId =>
    exact ⟨hagent, hlease, fun id hid => exists_forget (hevidence id hid) _, htarget, haction⟩
  | target targetId =>
    exact ⟨hagent, hlease, hevidence, fun id hid => exists_forget (htarget id hid) _, haction⟩
  | action runId =>
    refine ⟨hagent, hlease, hevidence, htarget, fun hallow resultHash hhash => ?_⟩
    show ∃ confirmed, Function.update v.action runId _ receipt.runId resultHash = .ok confirmed
    by_cases heq : receipt.runId = runId
    · rw [heq, Function.update_self]
      exact ⟨false, rfl⟩
    · rw [Function.update_of_ne heq]
      exact haction hallow resultHash hhash

section Noticed

variable {v : StoreView} {draw : Draw} {identity : IdentityContext} {leaseId : String}
  {intent : ActionIntent} {agent : AgentRecord} {chain : List (String × AuthorityProvenanceRecord)}
  {report : ControlPlane.GateReport} {target : MaterialTarget} {resultHash : String}

open ControlPlane

/-- The findings of an ALLOW receipt, when nothing else is missing, after one of its predecessors
    was forgotten.  Case by case on the record: the part that looks it up finds it missing, and the
    other parts find what they found before. -/
theorem findings_forget {evidenceId : String}
    (hnil : findings v (allowReceipt draw identity leaseId intent report target resultHash) = [])
    (hcited : report.evidenceRefs = [evidenceId])
    (hobserved : agent.observedCapabilities.lookup intent.actionType = some evidenceId)
    (hname : target.targetId = intent.targetId) (hhash : resultHash ≠ "") {ref : RecordRef}
    (hbased : BasedOn draw identity leaseId intent agent chain ref) :
    findings (v.forget ref) (allowReceipt draw identity leaseId intent report target resultHash) ≠
      [] ↔ ref.Cited := by
  have hgone : ∀ {V : Type} (f : String → Except PyError (Option V)) (id : String),
      Function.update f id (.ok none) id = .ok none := fun f id => Function.update_self _ _ _
  cases hbased with
  | agent =>
    refine iff_of_true (fun hfound => (findings_eq_nil.mp hfound).1 ?_) trivial
    show stored (Function.update v.agent identity.agentId (.ok none) identity.agentId) = none
    rw [hgone]
    rfl
  | lease =>
    by_cases hempty : leaseId = ""
    · -- an empty lease id is not looked up
      subst hempty
      exact iff_of_false (not_not_intro hnil) (not_not_intro rfl)
    · refine iff_of_true (fun hfound => ?_) hempty
      have hlease := (findings_eq_nil.mp hfound).2.1
      unfold leaseFindings at hlease
      simp only [allowReceipt, receiptRecord, truthy_some hempty] at hlease
      refine reasonIf_eq_nil.mp hlease ?_
      show stored (Function.update v.lease leaseId (.ok none) leaseId) = none
      rw [hgone]
      rfl
  | @evidence evidenceId' hid =>
    have hsame : evidenceId' = evidenceId := Option.some.inj (hid.symm.trans hobserved)
    subst hsame
    refine iff_of_true (fun hfound => ?_) trivial
    have hevidence := (findings_eq_nil.mp hfound).2.2.1
    replace hevidence : evidenceFindings (v.forget (.evidence evidenceId')) report.evidenceRefs = [] :=
      hevidence
    rw [hcited, evidenceFindings, List.flatMap_eq_nil_iff] at hevidence
    refine reasonIf_eq_nil.mp (hevidence evidenceId' (List.mem_singleton_self _)) ?_
    show stored (Function.update v.evidence evidenceId' (.ok none) evidenceId') = none
    rw [hgone]
    rfl
  | target =>
    by_cases hempty : intent.targetId = ""
    · -- an empty target id is not looked up
      rw [hempty] at hname ⊢
      refine iff_of_false (not_not_intro ?_) (not_not_intro rfl)
      have hnone : truthy (allowReceipt draw identity leaseId intent report target
          resultHash).targetId = none := by
        show truthy (some target.targetId) = none
        rw [hname]
        rfl
      obtain ⟨hagent, hlease, hevidence, -, hexecutor⟩ := findings_eq_nil.mp hnil
      exact findings_eq_nil.mpr
        ⟨hagent, hlease, hevidence, storedTargetFindings_of_none hnone, hexecutor⟩
    · refine iff_of_true (fun hfound => ?_) hempty
      have htarget := (findings_eq_nil.mp hfound).2.2.2.1
      have hnamed : truthy (allowReceipt draw identity leaseId intent report target
          resultHash).targetId = some intent.targetId := by
        show truthy (some target.targetId) = _
        rw [hname, truthy_some hempty]
      rw [storedTargetFindings_of_name hnamed (hgone v.target intent.targetId)] at htarget
      cases htarget
  | provenance he => exact iff_of_false (not_not_intro hnil) id
  | action =>
    refine iff_of_true (fun hfound => ?_) trivial
    have hexecutor := (findings_eq_nil.mp hfound).2.2.2.2
    unfold executorFindings at hexecutor
    simp only [allowReceipt, receiptRecord, if_true, truthy_some hhash] at hexecutor
    refine reasonIf_eq_nil.mp hexecutor ?_
    show (Function.update v.action draw.runId (fun _ => .ok false) draw.runId resultHash).toOption ≠ _
    rw [Function.update_self]
    decide

end Noticed

/-- A missing material predecessor makes the replay of an ALLOW receipt fail exactly when the receipt
    cites it.  After any run from an empty store, let an execution that requires provenance return
    ALLOW: of the records the decision was based on, the removal of any one is noticed, but for the
    provenance records of the lineage, a lease with an empty id and a target with an empty id. -/
theorem missing_predecessor_fails_iff [PyRuntime] (s₀ : Backend)
    (hempty : s₀.view = StoreView.empty) (fuel : Nat) (before : List Command)
    (roots : Finset String) (draw : Draw) (identity : IdentityContext) (leaseId : String)
    (intent : ActionIntent) (receipt : ExecutionReceipt) (s : Backend)
    (hrun : (ControlPlane.execute (.requiring roots) fuel draw identity leaseId intent).run
      Backend.handle (runCommands Backend.handle fuel before s₀).2 = (.ok receipt, s))
    (hallow : receipt.decision = "ALLOW") :
    ∃ agent evidence lease chain target,
      Authorized (runCommands Backend.handle fuel before s₀).2.view roots draw.now identity leaseId
        intent agent evidence lease chain target ∧
      ∀ ref, BasedOn draw identity leaseId intent agent chain ref →
        ∃ manifest, (ControlPlane.replay receipt.receiptId).run Backend.handle (s.remove ref) =
            (.ok manifest, s.remove ref) ∧
          (manifest.reconstructionStatus = "FAIL" ↔ ref.Cited) := by
  have hfiled : Filed (runCommands Backend.handle fuel before s₀).2.view := by
    refine filed_run backend_backs fuel before ?_
    rw [hempty]
    exact filed_empty
  have hheld := held_of_execute backend_implements hrun hallow
  have hnil := findings_of_allow backend_implements hrun hallow hfiled
  obtain ⟨report, agent, evidenceId, evidence, lease, target, resultHash, hadmitted, hhash, hreceipt,
    hview⟩ := ControlPlane.execute_allow backend_implements hrun hallow
  obtain ⟨chain, hauthorized⟩ := authorized_of_admitted hadmitted
  refine ⟨agent, evidence, lease, chain, target, hauthorized, fun ref hbased => ?_⟩
  have hname : target.targetId = intent.targetId := hfiled _ _ hadmitted.targeted
  have hlegible : ControlPlane.Legible s.view receipt := by
    refine hheld.standing.legible fun id hid => ⟨some target, ?_⟩
    rw [hreceipt] at hid
    have hsome : target.targetId = id := Option.some.inj (truthy_eq_some.mp hid).1
    rw [hview, ← hsome, hname]
    exact hadmitted.targeted
  have hstored : (s.remove ref).view.receipt receipt.receiptId = .ok (some receipt) := by
    rw [view_remove]
    cases ref <;> exact hheld.stored
  refine ⟨_, ControlPlane.replay_run backend_implements hstored ?_, ?_⟩
  · rw [view_remove]
    exact legible_forget hlegible ref
  · rw [ControlPlane.manifestOf_fail_iff, view_remove]
    rw [hreceipt] at hnil ⊢
    exact findings_forget hnil hadmitted.cited hadmitted.observed hname
      (canonicalHash_ne_empty hhash) hbased

open CloudDemo in
/-- The child record of the demo's lineage is removed after its ALLOW receipt was issued, and the
    replay passes all the same. -/
theorem removed_provenance_is_not_noticed :
    let s := (runCommands Backend.handle 3 missionCalls (.memory {})).2
    let executed := (ControlPlane.execute (.requiring {trustedRoot}) 3 missionDraw (identity "s1")
      "lease-001" missionIntent).run Backend.handle s
    executed.1.map ExecutionReceipt.decision = .ok "ALLOW" ∧
    s.view.provenance "prov-child" = .ok (some (provenanceChild missionTime)) ∧
    (lease missionTime).provenanceId = some "prov-child" ∧
    ((ControlPlane.replay "rcpt-2").run Backend.handle
        (executed.2.remove (.provenance "prov-child"))).1 =
      .ok ⟨"run-1", "rcpt-2", "PASS", [], "trace-3"⟩ := by
  decide +kernel

open CloudDemo in
/-- The demo's agent is removed after its ALLOW receipt was issued, and the replay fails. -/
theorem removed_agent_is_noticed :
    ∃ receipt s manifest, (ControlPlane.execute (.requiring {trustedRoot}) 3 missionDraw
        (identity "s1") "lease-001" missionIntent).run Backend.handle
          (runCommands Backend.handle 3 missionCalls (.memory {})).2 = (.ok receipt, s) ∧
      ((ControlPlane.replay receipt.receiptId).run Backend.handle
        (s.remove (.agent agent.agentId))).1 = .ok manifest ∧
      manifest.reconstructionStatus = "FAIL" := by
  have hdecision : ((ControlPlane.execute (.requiring {trustedRoot}) 3 missionDraw (identity "s1")
      "lease-001" missionIntent).run Backend.handle
        (runCommands Backend.handle 3 missionCalls (.memory {})).2).1.map
          ExecutionReceipt.decision = .ok "ALLOW" := by decide +kernel
  obtain ⟨receipt, hreceipt, hallow⟩ := map_eq_ok hdecision
  obtain ⟨found, evidence, lease, chain, target, -, hnoticed⟩ := missing_predecessor_fails_iff
    (.memory {}) rfl 3 missionCalls {trustedRoot} missionDraw (identity "s1") "lease-001"
    missionIntent receipt _ (Prod.ext hreceipt rfl) hallow
  obtain ⟨manifest, hreplay, hfail⟩ := hnoticed (.agent agent.agentId) BasedOn.agent
  exact ⟨receipt, _, manifest, Prod.ext hreceipt rfl, congrArg Prod.fst hreplay,
    hfail.mpr trivial⟩

end PoiexGoc
