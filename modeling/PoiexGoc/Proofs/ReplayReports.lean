/-
  PROMOTIONS and REPLAYS as functions of what the store answers.

  A promotion on sound evidence is one put (`promote_run`).  A replay only reads: when no answer
  about the receipt's records is an exception (`Legible`), it reports the mismatches that these
  answers amount to (`findings`, `replay_run`).  There is none when everything the receipt refers
  to is stored and agrees with it (`Reconstructable`, `replay_eval_pass`); the replay then reads
  records that are there, and nothing else (`replay_ops_find`).
-/
import PoiexGoc.Proofs.GateReports

namespace PoiexGoc

open Py Effect

/-- The evidence a promotion asks for. -/
structure Supports (evidence : EvidenceItem) (agentId capability : String) : Prop where
  subject : evidence.subjectId = agentId
  claim : evidence.claim = capability
  source : evidence.sourceType = .runtimeObservation

/-- The agent once the capability was observed. -/
def withCapability (capability evidenceId : String) (agent : AgentRecord) : AgentRecord :=
  { agent with observedCapabilities := agent.observedCapabilities.insert capability evidenceId }

namespace ControlPlane

/-- What a promotion does once it has read the agent and sound evidence. -/
theorem promote_checks {evidence : EvidenceItem} {agentId capability : String}
    (hsupports : Supports evidence agentId capability) (p : StoreM Unit) :
    (if evidence.subjectId ≠ agentId ∨ evidence.claim ≠ capability then
        throw (.valueError "evidence does not bind subject and claim")
      else if evidence.sourceType ≠ .runtimeObservation then
        throw (.valueError "only runtime observation may create OBSERVED capability")
      else p : StoreM Unit) = p := by
  have hbind : ¬ (evidence.subjectId ≠ agentId ∨ evidence.claim ≠ capability) := by
    rw [hsupports.subject, hsupports.claim]
    rintro (hne | hne)
    · exact hne rfl
    · exact hne rfl
  rw [if_neg hbind, if_neg (not_not_intro hsupports.source)]

/-- What it does on any other evidence. -/
theorem promote_refuses {evidence : EvidenceItem} {agentId capability : String}
    (hunsound : ¬ Supports evidence agentId capability) (p : StoreM Unit) :
    ∃ e, (if evidence.subjectId ≠ agentId ∨ evidence.claim ≠ capability then
        throw (.valueError "evidence does not bind subject and claim")
      else if evidence.sourceType ≠ .runtimeObservation then
        throw (.valueError "only runtime observation may create OBSERVED capability")
      else p : StoreM Unit) = .done (.error e) := by
  by_cases hbind : evidence.subjectId ≠ agentId ∨ evidence.claim ≠ capability
  · rw [if_pos hbind]
    exact ⟨_, rfl⟩
  · rw [if_neg hbind]
    obtain ⟨hsubject, hclaim⟩ := not_or.mp hbind
    by_cases hsource : evidence.sourceType ≠ .runtimeObservation
    · rw [if_pos hsource]
      exact ⟨_, rfl⟩
    · exact absurd ⟨not_not.mp hsubject, not_not.mp hclaim, not_not.mp hsource⟩ hunsound

/-! ## What a replay reports -/

/-- The record behind an answer, as far as the store can tell. -/
def stored {α : Type} (answer : Except PyError (Option α)) : Option α := answer.toOption.join

/-- None of the answers a replay of the receipt asks for is an exception. -/
structure Legible (v : StoreView) (receipt : ExecutionReceipt) : Prop where
  agent : ∃ found, v.agent receipt.agentId = .ok found
  lease : ∀ id, truthy receipt.leaseId = some id → ∃ found, v.lease id = .ok found
  evidence : ∀ id ∈ receipt.registryEvidenceRefs, ∃ found, v.evidence id = .ok found
  target : ∀ id, truthy receipt.targetId = some id → ∃ found, v.target id = .ok found
  action : receipt.decision = "ALLOW" → ∀ resultHash,
    truthy receipt.executorResultHash = some resultHash →
    ∃ confirmed, v.action receipt.runId resultHash = .ok confirmed

def leaseFindings (v : StoreView) (receipt : ExecutionReceipt) : List String :=
  match truthy receipt.leaseId with
  | none => []
  | some id => reasonIf (stored (v.lease id) = none) "MISSING_LEASE"

def evidenceFindings (v : StoreView) (evidenceIds : List String) : List String :=
  evidenceIds.flatMap fun id => reasonIf (stored (v.evidence id) = none) ("MISSING_EVIDENCE:" ++ id)

def storedTargetFindings (v : StoreView) (receipt : ExecutionReceipt) : List String :=
  match truthy receipt.targetId with
  | none => []
  | some id => targetFindings receipt (stored (v.target id))

def executorFindings (v : StoreView) (receipt : ExecutionReceipt) : List String :=
  if receipt.decision = "ALLOW" then
    match truthy receipt.executorResultHash with
    | none => ["MISSING_EXECUTOR_RESULT_HASH"]
    | some resultHash =>
      reasonIf ((v.action receipt.runId resultHash).toOption ≠ some true)
        "EXECUTOR_RESULT_NOT_RECONSTRUCTABLE"
  else []

/-- The mismatches of a receipt, from what is stored. -/
def findings (v : StoreView) (receipt : ExecutionReceipt) : List String :=
  reasonIf (stored (v.agent receipt.agentId) = none) "MISSING_AGENT" ++ leaseFindings v receipt ++
    evidenceFindings v receipt.registryEvidenceRefs ++ storedTargetFindings v receipt ++
    executorFindings v receipt

/-- Nothing is found when no part finds anything. -/
theorem findings_eq_nil {v : StoreView} {receipt : ExecutionReceipt} :
    findings v receipt = [] ↔
      stored (v.agent receipt.agentId) ≠ none ∧ leaseFindings v receipt = [] ∧
        evidenceFindings v receipt.registryEvidenceRefs = [] ∧
        storedTargetFindings v receipt = [] ∧ executorFindings v receipt = [] := by
  simp only [findings, List.append_eq_nil_iff, reasonIf_eq_nil, ne_eq, and_assoc]

/-- The manifest of a replay that has found these mismatches. -/
def manifestOf (receipt : ExecutionReceipt) (found : List String) : ReplayManifest where
  runId := receipt.runId
  receiptId := receipt.receiptId
  reconstructionStatus := if found = [] then "PASS" else "FAIL"
  mismatches := found
  traceId := receipt.traceId

theorem manifestOf_fail_iff (receipt : ExecutionReceipt) (found : List String) :
    (manifestOf receipt found).reconstructionStatus = "FAIL" ↔ found ≠ [] := by
  show (if found = [] then "PASS" else "FAIL") = "FAIL" ↔ _
  by_cases hnil : found = []
  · rw [if_pos hnil]
    exact iff_of_false (by decide) (not_not_intro hnil)
  · rw [if_neg hnil]
    exact iff_of_true rfl hnil

theorem storedTargetFindings_of_none {v : StoreView} {receipt : ExecutionReceipt}
    (hid : truthy receipt.targetId = none) : storedTargetFindings v receipt = [] := by
  rw [storedTargetFindings, hid]

theorem storedTargetFindings_of_name {v : StoreView} {receipt : ExecutionReceipt} {id : String}
    (hid : truthy receipt.targetId = some id) {found : Option MaterialTarget}
    (hfound : v.target id = .ok found) :
    storedTargetFindings v receipt = targetFindings receipt found := by
  rw [storedTargetFindings, hid]
  show targetFindings receipt (stored (v.target id)) = _
  rw [hfound]
  rfl

/-- The target check fails unless a target with the receipt's hash was found. -/
theorem targetFindings_ne_nil {receipt : ExecutionReceipt} {found : Option MaterialTarget} :
    targetFindings receipt found ≠ [] ↔
      ∀ target, found = some target → receipt.targetHash ≠ some target.targetHash := by
  cases found with
  | none => exact iff_of_true (List.cons_ne_nil _ _) fun target hnone => by cases hnone
  | some target =>
    rw [targetFindings, ne_eq, reasonIf_eq_nil, not_not]
    constructor
    · intro hne target' hsame
      rw [← Option.some.inj hsame]
      exact hne
    · intro hall
      exact hall target rfl

/-! ## A replay without mismatches -/

section Found

variable {v : StoreView} {receipt : ExecutionReceipt}

theorem leaseFindings_eq_nil
    (hlease : ∀ id, truthy receipt.leaseId = some id → ∃ l, v.lease id = .ok (some l)) :
    leaseFindings v receipt = [] := by
  unfold leaseFindings
  cases hid : truthy receipt.leaseId with
  | none => rfl
  | some id =>
    obtain ⟨l, hl⟩ := hlease id hid
    show reasonIf (stored (v.lease id) = none) "MISSING_LEASE" = []
    rw [hl]
    rfl

theorem evidenceFindings_eq_nil {evidenceIds : List String}
    (hevidence : ∀ id ∈ evidenceIds, ∃ e, v.evidence id = .ok (some e)) :
    evidenceFindings v evidenceIds = [] := by
  rw [evidenceFindings, List.flatMap_eq_nil_iff]
  intro id hid
  obtain ⟨e, he⟩ := hevidence id hid
  rw [he]
  rfl

theorem executorFindings_eq_nil
    (haction : receipt.decision = "ALLOW" → ∃ resultHash,
      truthy receipt.executorResultHash = some resultHash ∧
      v.action receipt.runId resultHash = .ok true) : executorFindings v receipt = [] := by
  unfold executorFindings
  by_cases hallow : receipt.decision = "ALLOW"
  · obtain ⟨resultHash, hhash, hconfirmed⟩ := haction hallow
    rw [if_pos hallow, hhash]
    exact reasonIf_eq_nil.mpr (not_not_intro (congrArg Except.toOption hconfirmed))
  · rw [if_neg hallow]

end Found

/-- Everything a replay looks for is stored, and the receipt agrees with it. -/
structure Reconstructable (v : StoreView) (receipt : ExecutionReceipt) : Prop where
  agent : ∃ a, v.agent receipt.agentId = .ok (some a)
  lease : ∀ id, truthy receipt.leaseId = some id → ∃ l, v.lease id = .ok (some l)
  evidence : ∀ id ∈ receipt.registryEvidenceRefs, ∃ e, v.evidence id = .ok (some e)
  target : ∀ id, truthy receipt.targetId = some id → ∃ t, v.target id = .ok (some t) ∧
    receipt.targetHash = some t.targetHash
  action : receipt.decision = "ALLOW" → ∃ resultHash,
    truthy receipt.executorResultHash = some resultHash ∧
    v.action receipt.runId resultHash = .ok true

theorem Reconstructable.legible {v : StoreView} {receipt : ExecutionReceipt}
    (hrec : Reconstructable v receipt) : Legible v receipt where
  agent := by
    obtain ⟨a, ha⟩ := hrec.agent
    exact ⟨some a, ha⟩
  lease := by
    intro id hid
    obtain ⟨l, hl⟩ := hrec.lease id hid
    exact ⟨some l, hl⟩
  evidence := by
    intro id hid
    obtain ⟨e, he⟩ := hrec.evidence id hid
    exact ⟨some e, he⟩
  target := by
    intro id hid
    obtain ⟨t, ht, -⟩ := hrec.target id hid
    exact ⟨some t, ht⟩
  action := by
    intro hallow resultHash hhash
    obtain ⟨resultHash', hhash', hconfirmed⟩ := hrec.action hallow
    rw [hhash'] at hhash
    rw [← Option.some.inj hhash]
    exact ⟨true, hconfirmed⟩

theorem Reconstructable.findings_eq_nil {v : StoreView} {receipt : ExecutionReceipt}
    (hrec : Reconstructable v receipt) : findings v receipt = [] := by
  have htarget : storedTargetFindings v receipt = [] := by
    cases hid : truthy receipt.targetId with
    | none => exact storedTargetFindings_of_none hid
    | some id =>
      obtain ⟨t, ht, hhash⟩ := hrec.target id hid
      rw [storedTargetFindings_of_name hid ht]
      exact reasonIf_eq_nil.mpr (not_not_intro hhash)
  obtain ⟨a, ha⟩ := hrec.agent
  rw [findings, leaseFindings_eq_nil hrec.lease, evidenceFindings_eq_nil hrec.evidence, htarget,
    executorFindings_eq_nil hrec.action, ha]
  rfl

/-! ## Running promotions and replays -/

variable [PyRuntime] {σ : Type} {h : Handler RuntimeStore PyError σ} {view : σ → StoreView}

/-- A promotion on sound evidence is one put: the agent with the observed capability. -/
theorem promote_run (himp : Implements h view) {s : σ} {agent : AgentRecord}
    {evidence : EvidenceItem} {agentId capability evidenceId : String}
    (hagent : (view s).agent agentId = .ok (some agent))
    (hevidence : (view s).evidence evidenceId = .ok (some evidence))
    (hsupports : Supports evidence agentId capability) :
    (promoteObservedCapability agentId capability evidenceId).run h s =
      (store.putAgent (withCapability capability evidenceId agent)).run h s := by
  have hreadAgent : (store.getAgent agentId).run h s = (.ok (some agent), s) := by
    rw [himp.run_read (show StoreOp.IsRead (.getAgent agentId) from trivial), ← hagent]
    rfl
  have hreadEvidence : (store.getEvidence evidenceId).run h s = (.ok (some evidence), s) := by
    rw [himp.run_read (show StoreOp.IsRead (.getEvidence evidenceId) from trivial), ← hevidence]
    rfl
  unfold promoteObservedCapability
  rw [Prog.run_bind_ok hreadAgent]
  show (store.getEvidence evidenceId >>= _).run h s = _
  rw [Prog.run_bind_ok hreadEvidence]
  exact congrArg (fun p : StoreM Unit => p.run h s) (promote_checks hsupports _)

/-- Without a registered agent and sound evidence it raises, and changes nothing. -/
theorem promote_raises (himp : Implements h view) {s : σ} {agentId capability evidenceId : String}
    (hnone : ∀ agent evidence, (view s).agent agentId = .ok (some agent) →
      (view s).evidence evidenceId = .ok (some evidence) → ¬ Supports evidence agentId capability) :
    ∃ e, (promoteObservedCapability agentId capability evidenceId).run h s = (.error e, s) := by
  have hreadAgent : (store.getAgent agentId).run h s = ((view s).agent agentId, s) :=
    himp.run_read (show StoreOp.IsRead (.getAgent agentId) from trivial) s
  have hreadEvidence : (store.getEvidence evidenceId).run h s = ((view s).evidence evidenceId, s) :=
    himp.run_read (show StoreOp.IsRead (.getEvidence evidenceId) from trivial) s
  cases hagent : (view s).agent agentId with
  | error e =>
    rw [hagent] at hreadAgent
    exact ⟨e, Prog.run_bind_error hreadAgent _⟩
  | ok found =>
    rw [hagent] at hreadAgent
    cases found with
    | none => exact ⟨_, Prog.run_bind_ok hreadAgent _⟩
    | some agent =>
      -- the agent is there: what is left is the evidence
      cases hevidence : (view s).evidence evidenceId with
      | error e =>
        rw [hevidence] at hreadEvidence
        exact ⟨e, (Prog.run_bind_ok hreadAgent _).trans (Prog.run_bind_error hreadEvidence _)⟩
      | ok found =>
        rw [hevidence] at hreadEvidence
        cases found with
        | none =>
          exact ⟨_, (Prog.run_bind_ok hreadAgent _).trans (Prog.run_bind_ok hreadEvidence _)⟩
        | some evidence =>
          obtain ⟨e, hrefuses⟩ := promote_refuses (hnone agent evidence hagent hevidence)
            (store.putAgent (withCapability capability evidenceId agent))
          refine ⟨e, (Prog.run_bind_ok hreadAgent _).trans ?_⟩
          refine (Prog.run_bind_ok hreadEvidence _).trans ?_
          exact congrArg (fun p : StoreM Unit => p.run h s) hrefuses

/-- The two ways a promotion ends. -/
theorem promote_cases (himp : Implements h view) (agentId capability evidenceId : String) (s : σ) :
    (∃ e, (promoteObservedCapability agentId capability evidenceId).run h s = (.error e, s)) ∨
    ∃ agent evidence, (view s).agent agentId = .ok (some agent) ∧
      (view s).evidence evidenceId = .ok (some evidence) ∧ Supports evidence agentId capability ∧
      (promoteObservedCapability agentId capability evidenceId).run h s =
        (.ok (), (h (.putAgent (withCapability capability evidenceId agent)) s).2) := by
  by_cases hsound : ∃ agent evidence, (view s).agent agentId = .ok (some agent) ∧
      (view s).evidence evidenceId = .ok (some evidence) ∧ Supports evidence agentId capability
  · obtain ⟨agent, evidence, hagent, hevidence, hsupports⟩ := hsound
    refine Or.inr ⟨agent, evidence, hagent, hevidence, hsupports, ?_⟩
    rw [promote_run himp hagent hevidence hsupports]
    exact Prod.ext (himp.refines (.putAgent _) s trivial).1 rfl
  · refine Or.inl (promote_raises himp ?_)
    intro agent evidence hagent hevidence hsupports
    exact hsound ⟨agent, evidence, hagent, hevidence, hsupports⟩

section Parts

variable {v : StoreView} {receipt : ExecutionReceipt}

theorem leaseMismatches_eval (hleg : Legible v receipt) :
    (leaseMismatches receipt).eval v.answers = .ok (leaseFindings v receipt) := by
  unfold leaseMismatches leaseFindings
  cases hid : truthy receipt.leaseId with
  | none => rfl
  | some id =>
    obtain ⟨found, hfound⟩ := hleg.lease id hid
    show Prog.eval v.answers (store.getLease id >>= _) = _
    rw [Prog.eval_bind]
    show (v.lease id >>= _) = .ok (reasonIf (stored (v.lease id) = none) "MISSING_LEASE")
    rw [hfound]
    rfl

theorem missingEvidence_eval {evidenceIds : List String}
    (hfound : ∀ id ∈ evidenceIds, ∃ found, v.evidence id = .ok found) :
    (missingEvidence evidenceIds).eval v.answers = .ok (evidenceFindings v evidenceIds) := by
  induction evidenceIds with
  | nil => rfl
  | cons id ids ih =>
    obtain ⟨found, hid⟩ := hfound id List.mem_cons_self
    have hrest := ih fun id' hid' => hfound id' (List.mem_cons_of_mem _ hid')
    rw [missingEvidence, evidenceFindings, List.flatMap_cons, Prog.eval_bind]
    show (v.evidence id >>= _) = _
    rw [hid, ok_bind, Prog.eval_bind, hrest]
    rfl

theorem targetMismatches_eval (hleg : Legible v receipt) :
    (targetMismatches receipt).eval v.answers = .ok (storedTargetFindings v receipt) := by
  unfold targetMismatches storedTargetFindings
  cases hid : truthy receipt.targetId with
  | none => rfl
  | some id =>
    obtain ⟨found, hfound⟩ := hleg.target id hid
    show Prog.eval v.answers (store.getTarget id >>= _) = _
    rw [Prog.eval_bind]
    show (v.target id >>= _) = .ok (targetFindings receipt (stored (v.target id)))
    rw [hfound]
    rfl

theorem executorMismatches_eval (hleg : Legible v receipt) :
    (executorMismatches receipt).eval v.answers = .ok (executorFindings v receipt) := by
  unfold executorMismatches executorFindings
  by_cases hallow : receipt.decision = "ALLOW"
  · rw [if_pos hallow, if_pos hallow]
    cases hhash : truthy receipt.executorResultHash with
    | none => rfl
    | some resultHash =>
      obtain ⟨confirmed, hconfirmed⟩ := hleg.action hallow resultHash hhash
      show Prog.eval v.answers (store.hasSyntheticAction receipt.runId resultHash >>= _) = _
      rw [Prog.eval_bind]
      show (v.action receipt.runId resultHash >>= _) =
        .ok (reasonIf ((v.action receipt.runId resultHash).toOption ≠ some true)
          "EXECUTOR_RESULT_NOT_RECONSTRUCTABLE")
      rw [hconfirmed]
      cases confirmed with
      | true => rfl
      | false => rfl
  · rw [if_neg hallow, if_neg hallow]
    rfl

theorem mismatches_eval (hleg : Legible v receipt) :
    (mismatches receipt).eval v.answers = .ok (findings v receipt) := by
  obtain ⟨agent, hagent⟩ := hleg.agent
  unfold mismatches findings
  rw [Prog.eval_bind]
  show (v.agent receipt.agentId >>= _) = _
  simp only [hagent, ok_bind, Prog.eval_bind, leaseMismatches_eval hleg,
    missingEvidence_eval hleg.evidence, targetMismatches_eval hleg, executorMismatches_eval hleg]
  rfl

end Parts

theorem replay_eval {v : StoreView} {receiptId : String} {receipt : ExecutionReceipt}
    (hreceipt : v.receipt receiptId = .ok (some receipt)) (hleg : Legible v receipt) :
    (replay receiptId).eval v.answers = .ok (manifestOf receipt (findings v receipt)) := by
  unfold replay
  rw [Prog.eval_bind]
  show (v.receipt receiptId >>= _) = _
  rw [hreceipt, ok_bind]
  show Prog.eval _ (mismatches receipt >>= _) = _
  rw [Prog.eval_bind, mismatches_eval hleg]
  rfl

theorem replay_run (himp : Implements h view) {s : σ} {receiptId : String}
    {receipt : ExecutionReceipt} (hreceipt : (view s).receipt receiptId = .ok (some receipt))
    (hleg : Legible (view s) receipt) :
    (replay receiptId).run h s = (.ok (manifestOf receipt (findings (view s) receipt)), s) := by
  rw [himp.run_reads (replay_issues receiptId), replay_eval hreceipt hleg]

theorem replay_eval_pass {v : StoreView} {receiptId : String} {receipt : ExecutionReceipt}
    (hreceipt : v.receipt receiptId = .ok (some receipt)) (hrec : Reconstructable v receipt) :
    (replay receiptId).eval v.answers =
      .ok ⟨receipt.runId, receipt.receiptId, "PASS", [], receipt.traceId⟩ := by
  rw [replay_eval hreceipt hrec.legible, hrec.findings_eq_nil]
  rfl

/-! ## What such a replay reads -/

/-- The operation reads a record that is there. -/
def FindsStored (v : StoreView) : StoreOp → Prop
  | .getAgent id => ∃ a, v.agent id = .ok (some a)
  | .getLease id => ∃ l, v.lease id = .ok (some l)
  | .getAuthorityProvenance id => ∃ record, v.provenance id = .ok (some record)
  | .getEvidence id => ∃ e, v.evidence id = .ok (some e)
  | .getTarget id => ∃ t, v.target id = .ok (some t)
  | .getReceipt id => ∃ receipt, v.receipt id = .ok (some receipt)
  | .hasSyntheticAction runId resultHash => v.action runId resultHash = .ok true
  | _ => False

omit [PyRuntime] in
theorem FindsStored.isRead {v : StoreView} {o : StoreOp} (ho : FindsStored v o) : o.IsRead := by
  cases o with
  | getAgent | getLease | getAuthorityProvenance | getEvidence | getTarget | getReceipt
  | hasSyntheticAction => trivial
  | _ => exact ho.elim

omit [PyRuntime] in
theorem Reconstructable.mismatches_issues {v : StoreView} {receipt : ExecutionReceipt}
    (hrec : Reconstructable v receipt) : (mismatches receipt).Issues (FindsStored v) := by
  refine ControlPlane.mismatches_issues hrec.agent hrec.lease hrec.evidence ?_ ?_
  · intro id hid
    obtain ⟨t, ht, -⟩ := hrec.target id hid
    exact ⟨t, ht⟩
  · intro hallow resultHash hhash
    obtain ⟨resultHash', hhash', hconfirmed⟩ := hrec.action hallow
    rw [hhash'] at hhash
    rw [← Option.some.inj hhash]
    exact hconfirmed

/-- The replay of a stored receipt that can be reconstructed reads what is there, and nothing
    else. -/
theorem replay_ops_find (himp : Implements h view) {s : σ} {receipt : ExecutionReceipt}
    (hreceipt : (view s).receipt receipt.receiptId = .ok (some receipt))
    (hrec : Reconstructable (view s) receipt) :
    ∀ o ∈ (replay receipt.receiptId).ops h s, FindsStored (view s) o := by
  have hmeets : (replay receipt.receiptId).Meets (fun o r => r = (view s).answers o)
      (FindsStored (view s)) fun _ => True := by
    refine ⟨⟨receipt, hreceipt⟩, fun r hr => ?_⟩
    rw [hr.trans hreceipt]
    refine Prog.Issues.meets _ ?_
    show Prog.Issues _ (mismatches receipt >>= _)
    exact Prog.issues_bind hrec.mismatches_issues fun _ => trivial
  refine hmeets.ops (I := fun s' => s' = s) ?_ rfl
  rintro o s' ho rfl
  exact ⟨(himp.refines o s' ho.isRead.storable).1, himp.readsKeep o s' ho.isRead⟩

end ControlPlane

end PoiexGoc
