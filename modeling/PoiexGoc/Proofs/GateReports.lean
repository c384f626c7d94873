/-
  The gates as a PURE FUNCTION of what the store answers.

  The gates only read, so on a store with view `v` they run as their evaluation on the answers of
  `v` (`gates_run`), and leave the store as it is.  What that evaluation is:
  * the identity gates look at one answer (`gates_eval_of_identity`, `gates_eval_of_agent`);
  * the material gates combine four (`materialGates_eval`);
  * the provenance gate is the verifier over the answers (`readProvenance_eval`), which may raise.

  The verifier over the answers finds nothing against a lease exactly when a legitimate chain is
  stored (`verify_clean_iff`): a lookup that raises is not on it.  So the lease gates have no reason
  exactly when the lease's own fields have none and such a chain is there (`leaseAnswer_clean_iff`).
-/
import PoiexGoc.Proofs.ControlPlaneCalls
import PoiexGoc.Proofs.ProvenanceWalks
import PoiexGoc.Spec.StoreView

namespace PoiexGoc

open Py Effect ParentChain

/-! ## The verifier over the stored records -/

/-- The stored provenance record of an id, as far as the store can tell. -/
def StoreView.provenanceRecord (v : StoreView) (id : String) : Option AuthorityProvenanceRecord :=
  match v.provenance id with
  | .ok record => record
  | .error _ => none

theorem StoreView.provenance_eq_ok {v : StoreView} {id : String}
    {record : AuthorityProvenanceRecord} (hrecord : v.provenanceRecord id = some record) :
    v.provenance id = .ok (some record) := by
  unfold StoreView.provenanceRecord at hrecord
  split at hrecord
  · rename_i found heq
    rw [heq, hrecord]
  · cases hrecord

/-- An answer of the store is what it holds. -/
theorem StoreView.provenanceRecord_of_ok {v : StoreView} (id : String)
    (record : Option AuthorityProvenanceRecord) (hrecord : v.provenance id = .ok record) :
    v.provenanceRecord id = record := by
  rw [StoreView.provenanceRecord, hrecord]

/-- The verifier over the store's answers finds nothing against the lease exactly when a legitimate
    chain is stored. -/
theorem verify_clean_iff {v : StoreView} {lease : AuthorityLease} {now : DateTime}
    {roots : Finset String} {fuel : Nat} :
    (∃ result, verifyAuthorityProvenance v.provenance fuel lease now roots = .ok result ∧
      result.reasons = []) ↔
    ∃ chain, LegitimateChain v.provenanceRecord lease now roots chain ∧ chain.length ≤ fuel := by
  constructor
  · rintro ⟨result, hverify, hnil⟩
    cases hid : truthy lease.provenanceId with
    | none =>
      rw [verifyAuthorityProvenance_of_missing hid] at hverify
      rw [← Except.ok.inj hverify] at hnil
      cases hnil
    | some id =>
      obtain ⟨path, ending, hchase, -, rfl⟩ :=
        chase_of_verify StoreView.provenanceRecord_of_ok hid hverify
      have haccepted : (chaseResult lease now roots path ending).accepted = true := by
        show (chaseResult lease now roots path ending).reasons.isEmpty = true
        rw [hnil]
        rfl
      obtain ⟨hreasons, rfl⟩ := chaseResult_accepted.mp haccepted
      have hpath := rootPath_of_chase hchase
      exact ⟨path, (pathReasons_eq_nil_iff_legitimate hid hpath).mp hreasons,
        (chases_of_chase hchase).2⟩
  · rintro ⟨chain, hchain, hlength⟩
    obtain ⟨id, hid, hpath⟩ := hchain.rootPath
    have hchase := chase_of_rootPath hpath (fun k _ => Finset.notMem_empty k) hlength
    have hread : Readable v.provenance chain .root := by
      intro k hk
      obtain ⟨e, he, rfl⟩ := List.mem_map.mp ((List.mem_append.mp hk).resolve_right List.not_mem_nil)
      exact ⟨some e.2, StoreView.provenance_eq_ok (hchain.stored e he)⟩
    refine ⟨_, verify_of_chase StoreView.provenanceRecord_of_ok hid hchase hread, ?_⟩
    have hreasons := (pathReasons_eq_nil_iff_legitimate hid hpath).mpr hchain
    show (pathReasons lease now roots true none chain ++ endingReasons .root).eraseDups = []
    rw [hreasons]
    rfl

namespace ControlPlane

variable {v : StoreView} {cp : ControlPlane} {fuel : Nat} {now : DateTime}
  {identity : IdentityContext} {leaseId : String} {intent : ActionIntent}

/-! ## When a gate has no reason -/

theorem identityReasons_eq_nil {found : Option AgentRecord} :
    identityReasons identity found intent = [] ↔
      identity.authenticated = true ∧ found ≠ none ∧ intent.agentId = identity.agentId := by
  simp only [identityReasons, List.append_eq_nil_iff, reasonIf_eq_nil, ne_eq, not_not,
    Bool.not_eq_false, and_assoc]

theorem capabilityReasons_eq_nil {evidence : Option EvidenceItem} :
    capabilityReasons evidence = [] ↔
      ∃ e, evidence = some e ∧ e.sourceType = .runtimeObservation := by
  rw [capabilityReasons, reasonIf_eq_nil, ne_eq, not_not, Option.map_eq_some_iff]

theorem leaseReasons_eq_nil {agent : AgentRecord} {lease : AuthorityLease} :
    leaseReasons identity intent agent lease now = [] ↔
      lease.agentId = identity.agentId ∧ intent.actionType ∈ lease.scope ∧
      ¬ revokedBy lease.revokedAt now ∧ now < lease.expiresAt ∧
      lease.epoch = agent.currentEpoch := by
  simp only [leaseReasons, List.append_eq_nil_iff, reasonIf_eq_nil, ne_eq, not_not, and_assoc,
    DateTime.le_def, DateTime.lt_def, Int.not_le]

theorem targetReasons_eq_nil {target : Option MaterialTarget} :
    targetReasons intent target = [] ↔
      ∃ t, target = some t ∧ intent.targetHash = t.targetHash ∧
        intent.actionType ∈ t.allowedActions := by
  cases target with
  | none => exact ⟨fun h => (nomatch h), fun ⟨_, h, _⟩ => (nomatch h)⟩
  | some t =>
    simp only [targetReasons, List.append_eq_nil_iff, reasonIf_eq_nil, ne_eq, not_not,
      Option.some.injEq, exists_eq_left']

/-! ## A registry that decodes -/

/-- Every registry document decodes, and the provenance records are among `provenanceIds`. -/
structure RegistryDecodes (v : StoreView) (provenanceIds : Finset String) : Prop where
  agent : ∀ id, ∃ found, v.agent id = .ok found
  lease : ∀ id, ∃ found, v.lease id = .ok found
  evidence : ∀ id, ∃ found, v.evidence id = .ok found
  target : ∀ id, ∃ found, v.target id = .ok found
  provenance : ∀ id, ∃ found, v.provenance id = .ok found
  bounded : ∀ id record, v.provenance id = .ok (some record) → id ∈ provenanceIds

theorem registryDecodes_empty : RegistryDecodes StoreView.empty ∅ where
  agent _ := ⟨_, rfl⟩
  lease _ := ⟨_, rfl⟩
  evidence _ := ⟨_, rfl⟩
  target _ := ⟨_, rfl⟩
  provenance _ := ⟨_, rfl⟩
  bounded _ _ hrecord := nomatch hrecord

/-- A put decodes where it is found, and leaves the other documents as they are. -/
theorem decodes_update {V : Type} {f : String → Except PyError (Option V)}
    (hf : ∀ id, ∃ found, f id = .ok found) (key : String) (new : V) (id : String) :
    ∃ found, Function.update f key (.ok (some new)) id = .ok found := by
  rcases update_eq_cases f key new id with ⟨-, hself⟩ | hother
  · exact ⟨some new, hself⟩
  · rw [hother]
    exact hf id

/-- Every operation leaves a registry that decodes, if the provenance records it puts are among the
    ids. -/
theorem RegistryDecodes.handle [PyRuntime] {provenanceIds : Finset String}
    (hdec : RegistryDecodes v provenanceIds) {o : StoreOp}
    (ho : ∀ record, o = .putAuthorityProvenance record → record.provenanceId ∈ provenanceIds) :
    RegistryDecodes (StoreView.handle o v).2 provenanceIds := by
  cases o with
  | putAgent agent => exact { hdec with agent := decodes_update hdec.agent _ agent }
  | putLease lease => exact { hdec with lease := decodes_update hdec.lease _ lease }
  | putEvidence evidence =>
    exact { hdec with evidence := decodes_update hdec.evidence _ evidence }
  | putTarget target => exact { hdec with target := decodes_update hdec.target _ target }
  | putAuthorityProvenance record =>
    refine { hdec with provenance := decodes_update hdec.provenance _ record, bounded := ?_ }
    intro id found hfound
    rcases StoreView.found_after_put hfound with ⟨rfl, -⟩ | hbefore
    · exact ho record rfl
    · exact hdec.bounded id found hbefore
  | putReceipt => exact { hdec with }
  | executeSyntheticAction runId payload =>
    simp only [StoreView.handle]
    cases canonicalHash (syntheticResult runId payload) with
    | error e => exact hdec
    | ok resultHash => exact { hdec with }
  | _ => exact hdec

/-- The verifier returns when it has one iteration for each stored record and one more. -/
theorem verify_isOk {provenanceIds : Finset String} (hdec : RegistryDecodes v provenanceIds)
    (hfuel : provenanceIds.card < fuel) (lease : AuthorityLease) (now : DateTime)
    (roots : Finset String) :
    ∃ result, verifyAuthorityProvenance v.provenance fuel lease now roots = .ok result := by
  cases hid : truthy lease.provenanceId with
  | none => exact ⟨_, verifyAuthorityProvenance_of_missing hid now roots fuel⟩
  | some id =>
    have hkeys : ∀ id record, v.provenanceRecord id = some record → id ∈ provenanceIds :=
      fun id record hrecord => hdec.bounded id record (StoreView.provenance_eq_ok hrecord)
    have hopen : (provenanceIds \ ∅).card < fuel := by
      rw [Finset.sdiff_empty]
      exact hfuel
    obtain ⟨⟨path, ending⟩, hchase⟩ := Option.isSome_iff_exists.mp
      (@chase_isSome _ _ _ AuthorityProvenanceRecord.parentProvenanceId _ _ hkeys _ _ id hopen)
    have hread : Readable v.provenance path ending := fun k _ => hdec.provenance k
    exact ⟨_, verify_of_chase StoreView.provenanceRecord_of_ok hid hchase hread⟩

/-! ## The gates on the store's answers -/

variable [PyRuntime]

theorem walk_eval (v : StoreView) (lease : AuthorityLease) (now : DateTime)
    (roots : Finset String) (fuel : Nat) (st : WalkState) :
    (walk (fun id => store.getAuthorityProvenance id) lease now roots fuel st).eval v.answers =
      walk v.provenance lease now roots fuel st := by
  induction fuel generalizing st with
  | zero => rfl
  | succ fuel ih =>
    rw [walk, walk]
    by_cases hvis : st.currentId ∈ st.visited
    · rw [if_pos hvis, if_pos hvis]
      rfl
    · rw [if_neg hvis, if_neg hvis, Prog.eval_bind]
      show (v.provenance st.currentId >>= _) = _
      cases v.provenance st.currentId with
      | error e => rfl
      | ok found =>
        cases found with
        | none => rfl
        | some record =>
          rw [ok_bind, ok_bind]
          cases hparent : record.parentProvenanceId with
          | none => simp only [hparent]; rfl
          | some parent => simp only [hparent]; exact ih _

/-- The provenance gate is the verifier over the store's answers. -/
theorem readProvenance_eval (v : StoreView) (fuel : Nat) (lease : AuthorityLease)
    (now : DateTime) (roots : Finset String) :
    (readProvenance fuel lease now roots).eval v.answers =
      verifyAuthorityProvenance v.provenance fuel lease now roots := by
  unfold readProvenance verifyAuthorityProvenance
  cases truthy lease.provenanceId with
  | none => rfl
  | some provenanceId =>
    show Prog.eval _ (walk _ _ _ _ _ _ >>= _) = _
    rw [Prog.eval_bind, walk_eval]
    rfl

/-- What the capability gate learns from the store. -/
def evidenceAnswer (v : StoreView) : Option String → Except PyError (Option EvidenceItem)
  | none => .ok none
  | some evidenceId => v.evidence evidenceId

/-- The lease gates over the store's answers. -/
def leaseAnswer (v : StoreView) (cp : ControlPlane) (fuel : Nat) (now : DateTime)
    (identity : IdentityContext) (intent : ActionIntent) (agent : AgentRecord) :
    Option AuthorityLease → Except PyError (List String)
  | none => .ok ["AUTHORITY_LEASE_MISSING"]
  | some lease =>
    if cp.requireAuthorityProvenance then do
      let provenance ←
        verifyAuthorityProvenance v.provenance fuel lease now cp.trustedAuthorityRoots
      return leaseReasons identity intent agent lease now ++ provenance.reasons
    else .ok (leaseReasons identity intent agent lease now)

theorem leaseGates_eval (v : StoreView) (cp : ControlPlane) (fuel : Nat) (now : DateTime)
    (identity : IdentityContext) (intent : ActionIntent) (agent : AgentRecord)
    (lease : Option AuthorityLease) :
    (leaseGates cp fuel now identity intent agent lease).eval v.answers =
      leaseAnswer v cp fuel now identity intent agent lease := by
  cases lease with
  | none => rfl
  | some lease =>
    rw [leaseGates, leaseAnswer]
    by_cases hprov : cp.requireAuthorityProvenance
    · rw [if_pos hprov, if_pos hprov, Prog.eval_bind, readProvenance_eval]
      rfl
    · rw [if_neg hprov, if_neg hprov]
      rfl

omit [PyRuntime] in
/-- The lease gates answer without a reason: the lease's own fields have none, and where provenance
    is required there is a chain. -/
theorem leaseAnswer_clean_iff {agent : AgentRecord} {lease : AuthorityLease} :
    leaseAnswer v cp fuel now identity intent agent (some lease) = .ok [] ↔
      leaseReasons identity intent agent lease now = [] ∧
      (cp.requireAuthorityProvenance = true → ∃ chain,
        LegitimateChain v.provenanceRecord lease now cp.trustedAuthorityRoots chain ∧
          chain.length ≤ fuel) := by
  rw [leaseAnswer]
  by_cases hprov : cp.requireAuthorityProvenance = true
  · rw [if_pos hprov, ← verify_clean_iff]
    constructor
    · intro hanswer
      obtain ⟨result, hverify, hreasons⟩ := bind_eq_ok.mp hanswer
      obtain ⟨hlease, hnil⟩ := List.append_eq_nil_iff.mp (Except.ok.inj hreasons)
      exact ⟨hlease, fun _ => ⟨result, hverify, hnil⟩⟩
    · rintro ⟨hlease, hchain⟩
      obtain ⟨result, hverify, hnil⟩ := hchain hprov
      rw [hverify, ok_bind, hlease, hnil]
      rfl
  · rw [if_neg hprov]
    constructor
    · intro hanswer
      exact ⟨Except.ok.inj hanswer, fun h => absurd h hprov⟩
    · rintro ⟨hlease, -⟩
      rw [hlease]

/-- The material gates over the store's answers. -/
theorem materialGates_eval (v : StoreView) (cp : ControlPlane) (fuel : Nat) (now : DateTime)
    (identity : IdentityContext) (leaseId : String) (intent : ActionIntent)
    (agent : AgentRecord) :
    (materialGates cp fuel now identity leaseId intent agent).eval v.answers = (do
      let evidenceId := truthy (agent.observedCapabilities.lookup intent.actionType)
      let evidence ← evidenceAnswer v evidenceId
      let lease ← v.lease leaseId
      let authorityReasons ← leaseAnswer v cp fuel now identity intent agent lease
      let target ← v.target intent.targetId
      return {
        evidenceRefs := evidenceId.toList
        target
        reasons := capabilityReasons evidence ++ authorityReasons ++ targetReasons intent target })
    := by
  have hevidence : ∀ evidenceId, (readEvidence evidenceId).eval v.answers =
      evidenceAnswer v evidenceId := by
    intro evidenceId
    cases evidenceId with
    | none => rfl
    | some evidenceId => rfl
  unfold materialGates
  simp only [Prog.eval_bind, hevidence, leaseGates_eval]
  rfl

/-- An identity reason is reported alone: nothing further is read. -/
theorem gates_eval_of_identity {found : Option AgentRecord}
    (hagent : v.agent identity.agentId = .ok found)
    (hidentity : identityReasons identity found intent ≠ []) :
    (gates cp fuel now identity leaseId intent).eval v.answers =
      .ok { evidenceRefs := [], target := none
            reasons := identityReasons identity found intent } := by
  unfold gates
  rw [Prog.eval_bind]
  show (v.agent identity.agentId >>= _) = _
  rw [hagent, ok_bind]
  split
  · rename_i heq
    exact absurd heq hidentity
  · rfl

/-- Past the identity gates, the report is the one of the material gates. -/
theorem gates_eval_of_agent {agent : AgentRecord}
    (hagent : v.agent identity.agentId = .ok (some agent))
    (hidentity : identityReasons identity (some agent) intent = []) :
    (gates cp fuel now identity leaseId intent).eval v.answers =
      (materialGates cp fuel now identity leaseId intent agent).eval v.answers := by
  unfold gates
  rw [Prog.eval_bind]
  show (v.agent identity.agentId >>= _) = _
  rw [hagent, ok_bind, hidentity]

/-! ## Gates that cannot raise -/

omit [PyRuntime] in
theorem evidenceAnswer_isOk {provenanceIds : Finset String}
    (hdec : RegistryDecodes v provenanceIds) (evidenceId : Option String) :
    ∃ found, evidenceAnswer v evidenceId = .ok found := by
  cases evidenceId with
  | none => exact ⟨none, rfl⟩
  | some evidenceId => exact hdec.evidence evidenceId

omit [PyRuntime] in
theorem leaseAnswer_isOk {provenanceIds : Finset String} (hdec : RegistryDecodes v provenanceIds)
    (hfuel : provenanceIds.card < fuel) (cp : ControlPlane) (now : DateTime)
    (identity : IdentityContext) (intent : ActionIntent) (agent : AgentRecord)
    (lease : Option AuthorityLease) :
    ∃ reasons, leaseAnswer v cp fuel now identity intent agent lease = .ok reasons := by
  cases lease with
  | none => exact ⟨_, rfl⟩
  | some lease =>
    rw [leaseAnswer]
    by_cases hprov : cp.requireAuthorityProvenance
    · obtain ⟨result, hresult⟩ := verify_isOk hdec hfuel lease now cp.trustedAuthorityRoots
      rw [if_pos hprov, hresult]
      exact ⟨_, rfl⟩
    · rw [if_neg hprov]
      exact ⟨_, rfl⟩

/-- Over a registry that decodes, with enough fuel, the gates report. -/
theorem gates_eval_isOk {provenanceIds : Finset String} (hdec : RegistryDecodes v provenanceIds)
    (hfuel : provenanceIds.card < fuel) (cp : ControlPlane) (now : DateTime)
    (identity : IdentityContext) (leaseId : String) (intent : ActionIntent) :
    ∃ report, (gates cp fuel now identity leaseId intent).eval v.answers = .ok report := by
  obtain ⟨found, hagent⟩ := hdec.agent identity.agentId
  by_cases hidentity : identityReasons identity found intent = []
  · obtain ⟨-, hknown, -⟩ := identityReasons_eq_nil.mp hidentity
    obtain ⟨agent, rfl⟩ := Option.ne_none_iff_exists'.mp hknown
    obtain ⟨evidence, hevidence⟩ :=
      evidenceAnswer_isOk hdec (truthy (agent.observedCapabilities.lookup intent.actionType))
    obtain ⟨lease, hlease⟩ := hdec.lease leaseId
    obtain ⟨reasons, hreasons⟩ := leaseAnswer_isOk hdec hfuel cp now identity intent agent lease
    obtain ⟨target, htarget⟩ := hdec.target intent.targetId
    rw [gates_eval_of_agent hagent hidentity, materialGates_eval]
    simp only [hevidence, hlease, hreasons, htarget, ok_bind]
    exact ⟨_, rfl⟩
  · exact ⟨_, gates_eval_of_identity hagent hidentity⟩

/-- What a report of an identified caller is made of: the four answers of the material gates. -/
theorem report_of_agent {agent : AgentRecord}
    (hagent : v.agent identity.agentId = .ok (some agent))
    (hidentity : identityReasons identity (some agent) intent = []) {report : GateReport}
    (heval : (gates cp fuel now identity leaseId intent).eval v.answers = .ok report) :
    ∃ evidence lease authorityReasons,
      evidenceAnswer v (truthy (agent.observedCapabilities.lookup intent.actionType)) =
        .ok evidence ∧
      v.lease leaseId = .ok lease ∧
      leaseAnswer v cp fuel now identity intent agent lease = .ok authorityReasons ∧
      v.target intent.targetId = .ok report.target ∧
      report.evidenceRefs = (truthy (agent.observedCapabilities.lookup intent.actionType)).toList ∧
      report.reasons =
        capabilityReasons evidence ++ authorityReasons ++ targetReasons intent report.target := by
  rw [gates_eval_of_agent hagent hidentity, materialGates_eval] at heval
  obtain ⟨evidence, hevidence, hrest⟩ := bind_eq_ok.mp heval
  obtain ⟨lease, hlease, hrest⟩ := bind_eq_ok.mp hrest
  obtain ⟨authorityReasons, hauthority, hrest⟩ := bind_eq_ok.mp hrest
  obtain ⟨target, htarget, hreport⟩ := bind_eq_ok.mp hrest
  rw [← Except.ok.inj hreport]
  exact ⟨evidence, lease, authorityReasons, hevidence, hlease, hauthority, htarget, rfl, rfl⟩

/-- What the lease's own fields say against the call is among the reasons of its report. -/
theorem mem_reasons_of_lease {agent : AgentRecord} {lease : AuthorityLease}
    (hagent : v.agent identity.agentId = .ok (some agent))
    (hidentity : identityReasons identity (some agent) intent = [])
    (hlease : v.lease leaseId = .ok (some lease)) {reason : String}
    (hreason : reason ∈ leaseReasons identity intent agent lease now) {report : GateReport}
    (heval : (gates cp fuel now identity leaseId intent).eval v.answers = .ok report) :
    reason ∈ report.reasons := by
  obtain ⟨evidence, found, authorityReasons, -, hfound, hauthority, -, -, hreasons⟩ :=
    report_of_agent hagent hidentity heval
  have hsame : some lease = found := Except.ok.inj (hlease.symm.trans hfound)
  rw [← hsame, leaseAnswer] at hauthority
  have hmem : reason ∈ authorityReasons := by
    by_cases hprov : cp.requireAuthorityProvenance
    · rw [if_pos hprov] at hauthority
      obtain ⟨result, -, hresult⟩ := bind_eq_ok.mp hauthority
      rw [← Except.ok.inj hresult]
      exact List.mem_append_left _ hreason
    · rw [if_neg hprov] at hauthority
      rw [← Except.ok.inj hauthority]
      exact hreason
  rw [hreasons]
  exact List.mem_append_left _ (List.mem_append_right _ hmem)

/-! ## Running the gates and `execute` on a backend -/

variable {σ : Type} {h : Handler RuntimeStore PyError σ} {view : σ → StoreView}

theorem gates_run (himp : Implements h view) (cp : ControlPlane) (fuel : Nat) (now : DateTime)
    (identity : IdentityContext) (leaseId : String) (intent : ActionIntent) (s : σ) :
    (gates cp fuel now identity leaseId intent).run h s =
      ((gates cp fuel now identity leaseId intent).eval (view s).answers, s) :=
  himp.run_reads
    ((gates_issues cp fuel now identity leaseId intent).mono fun _ => StoreOp.IsRegistryRead.isRead)
    s

/-- Storing a receipt does not raise. -/
theorem receipt_run (himp : Implements h view) (record : ExecutionReceipt) (s : σ) :
    (receipt record).run h s = (.ok record, (h (.putReceipt record) s).2) := by
  have hput : (h (.putReceipt record) s).1 = .ok () :=
    (himp.refines (.putReceipt record) s trivial).1
  have hrun : (store.putReceipt record).run h s = (.ok (), (h (.putReceipt record) s).2) :=
    Prod.ext hput rfl
  exact Prog.run_bind_ok hrun _

omit [PyRuntime] in
/-- A report with a reason, or without a target, is settled with a BLOCK receipt. -/
theorem settle_of_block {report : GateReport} (hblock : report.target = none ∨ report.reasons ≠ [])
    (draw : Draw) (identity : IdentityContext) (leaseId : String) (intent : ActionIntent) :
    settle draw identity leaseId intent report =
      receipt (blockReceipt draw identity leaseId intent report) := by
  unfold settle
  split
  · rename_i target htarget hnil
    rcases hblock with hnone | hne
    · cases hnone.symm.trans htarget
    · exact absurd hnil hne
  · rfl

omit [PyRuntime] in
/-- A report without reasons, about a stored target: the action, then an ALLOW receipt with its
    hash. -/
theorem settle_of_allow {report : GateReport} {target : MaterialTarget}
    (htarget : report.target = some target) (hnil : report.reasons = []) (draw : Draw)
    (identity : IdentityContext) (leaseId : String) (intent : ActionIntent) :
    settle draw identity leaseId intent report =
      (store.executeSyntheticAction draw.runId (actionPayload identity intent target) >>=
        fun resultHash =>
          receipt (allowReceipt draw identity leaseId intent report target resultHash)) := by
  unfold settle
  simp only [htarget, hnil]

/-- Storing an action answers its hash. -/
theorem action_answer (himp : Implements h view) (runId : String) (payload : PyDict) (s : σ) :
    (h (.executeSyntheticAction runId payload) s).1 =
      canonicalHash (syntheticResult runId payload) := by
  rw [(himp.refines (.executeSyntheticAction runId payload) s trivial).1]
  simp only [StoreView.handle]
  cases canonicalHash (syntheticResult runId payload) with
  | error e => rfl
  | ok resultHash => rfl

theorem settle_run_block (himp : Implements h view) {report : GateReport}
    (hblock : report.target = none ∨ report.reasons ≠ []) (draw : Draw)
    (identity : IdentityContext) (leaseId : String) (intent : ActionIntent) (s : σ) :
    (settle draw identity leaseId intent report).run h s =
      (.ok (blockReceipt draw identity leaseId intent report),
        (h (.putReceipt (blockReceipt draw identity leaseId intent report)) s).2) := by
  rw [settle_of_block hblock]
  exact receipt_run himp _ s

/-- An action that has no hash raises before anything is stored. -/
theorem settle_run_allow (himp : Implements h view) {report : GateReport} {target : MaterialTarget}
    (htarget : report.target = some target) (hnil : report.reasons = []) (draw : Draw)
    (identity : IdentityContext) (leaseId : String) (intent : ActionIntent) (s : σ) :
    (settle draw identity leaseId intent report).run h s =
      match canonicalHash (syntheticResult draw.runId (actionPayload identity intent target)) with
      | .error e => (.error e, s)
      | .ok resultHash =>
        (.ok (allowReceipt draw identity leaseId intent report target resultHash),
          (h (.putReceipt (allowReceipt draw identity leaseId intent report target resultHash))
            (h (.executeSyntheticAction draw.runId (actionPayload identity intent target))
              s).2).2) := by
  have hans := action_answer himp draw.runId (actionPayload identity intent target) s
  rw [settle_of_allow htarget hnil]
  cases hhash : canonicalHash
      (syntheticResult draw.runId (actionPayload identity intent target)) with
  | error e =>
    have hraise := hans.trans hhash
    have hrun : (store.executeSyntheticAction draw.runId
        (actionPayload identity intent target)).run h s = (.error e, s) :=
      Prod.ext hraise (himp.raisesKeep _ s e hraise)
    exact Prog.run_bind_error hrun _
  | ok resultHash =>
    have hrun : (store.executeSyntheticAction draw.runId
        (actionPayload identity intent target)).run h s = (.ok resultHash,
          (h (.executeSyntheticAction draw.runId (actionPayload identity intent target)) s).2) :=
      Prod.ext (hans.trans hhash) rfl
    rw [Prog.run_bind_ok hrun]
    exact receipt_run himp _ _

/-- An action on serializable parameters has a hash. -/
theorem syntheticResult_isOk {intent : ActionIntent}
    (hpar : Serializable (.dict intent.parameters)) (runId : String) (identity : IdentityContext)
    (target : MaterialTarget) :
    ∃ resultHash, canonicalHash (syntheticResult runId (actionPayload identity intent target)) =
      .ok resultHash := by
  have hpayload : Serializable (.dict (actionPayload identity intent target)) := by
    apply serializable_dict.mpr
    simp only [actionPayload, List.forall_mem_cons, serializable_str, hpar, List.not_mem_nil,
      false_implies, implies_true, and_self]
  apply canonicalHash_isOk
  simp only [syntheticResult, List.forall_mem_cons, serializable_str, serializable_bool, hpayload,
    List.not_mem_nil, false_implies, implies_true, and_self]

/-- `execute` evaluates the gates on what is stored and then settles. -/
theorem execute_run (himp : Implements h view) (cp : ControlPlane) (fuel : Nat) (draw : Draw)
    (identity : IdentityContext) (leaseId : String) (intent : ActionIntent) (s : σ) :
    (execute cp fuel draw identity leaseId intent).run h s =
      match (gates cp fuel draw.now identity leaseId intent).eval (view s).answers with
      | .error e => (.error e, s)
      | .ok report => (settle draw identity leaseId intent report).run h s := by
  unfold execute
  rw [Prog.run_bind, gates_run himp]
  cases (gates cp fuel draw.now identity leaseId intent).eval (view s).answers with
  | error e => rfl
  | ok report => rfl

/-- Over a registry that decodes, with enough fuel and serializable parameters, a call returns: it
    stores a BLOCK receipt, or an action and its ALLOW receipt. -/
theorem execute_decides (himp : Implements h view) {s : σ} {provenanceIds : Finset String}
    (hdec : RegistryDecodes (view s) provenanceIds) (hfuel : provenanceIds.card < fuel)
    (hpar : Serializable (.dict intent.parameters)) (cp : ControlPlane) (draw : Draw)
    (identity : IdentityContext) (leaseId : String) :
    (∃ report, (execute cp fuel draw identity leaseId intent).run h s =
      (.ok (blockReceipt draw identity leaseId intent report),
        (h (.putReceipt (blockReceipt draw identity leaseId intent report)) s).2)) ∨
    (∃ report target resultHash,
      canonicalHash (syntheticResult draw.runId (actionPayload identity intent target)) =
        .ok resultHash ∧
      (execute cp fuel draw identity leaseId intent).run h s =
        (.ok (allowReceipt draw identity leaseId intent report target resultHash),
          (h (.putReceipt (allowReceipt draw identity leaseId intent report target resultHash))
            (h (.executeSyntheticAction draw.runId (actionPayload identity intent target))
              s).2).2)) := by
  obtain ⟨report, heval⟩ := gates_eval_isOk hdec hfuel cp draw.now identity leaseId intent
  rw [execute_run himp, heval]
  by_cases hblock : report.target = none ∨ report.reasons ≠ []
  · exact Or.inl ⟨report, settle_run_block himp hblock draw identity leaseId intent s⟩
  · rw [not_or, not_not] at hblock
    obtain ⟨target, htarget⟩ := Option.ne_none_iff_exists'.mp hblock.1
    obtain ⟨resultHash, hhash⟩ := syntheticResult_isOk hpar draw.runId identity target
    have hrun := settle_run_allow himp htarget hblock.2 draw identity leaseId intent s
    rw [hhash] at hrun
    exact Or.inr ⟨report, target, resultHash, hhash, hrun⟩

/-- Everything an `execute` call can do: raise and leave the store alone, store a BLOCK receipt, or
    store an action and its ALLOW receipt. -/
theorem execute_cases (himp : Implements h view) (cp : ControlPlane) (fuel : Nat) (draw : Draw)
    (identity : IdentityContext) (leaseId : String) (intent : ActionIntent) (s : σ) :
    (∃ e, (execute cp fuel draw identity leaseId intent).run h s = (.error e, s)) ∨
    (∃ report,
      (gates cp fuel draw.now identity leaseId intent).eval (view s).answers = .ok report ∧
      (report.target = none ∨ report.reasons ≠ []) ∧
      (execute cp fuel draw identity leaseId intent).run h s =
        (.ok (blockReceipt draw identity leaseId intent report),
          (h (.putReceipt (blockReceipt draw identity leaseId intent report)) s).2)) ∨
    (∃ report target resultHash,
      (gates cp fuel draw.now identity leaseId intent).eval (view s).answers = .ok report ∧
      report.target = some target ∧ report.reasons = [] ∧
      canonicalHash (syntheticResult draw.runId (actionPayload identity intent target)) =
        .ok resultHash ∧
      (execute cp fuel draw identity leaseId intent).run h s =
        (.ok (allowReceipt draw identity leaseId intent report target resultHash),
          (h (.putReceipt (allowReceipt draw identity leaseId intent report target resultHash))
            (h (.executeSyntheticAction draw.runId (actionPayload identity intent target))
              s).2).2)) := by
  rw [execute_run himp]
  cases hgates : (gates cp fuel draw.now identity leaseId intent).eval (view s).answers with
  | error e => exact Or.inl ⟨e, rfl⟩
  | ok report =>
    by_cases hblock : report.target = none ∨ report.reasons ≠ []
    · exact Or.inr (Or.inl ⟨report, rfl, hblock, settle_run_block himp hblock _ _ _ _ s⟩)
    · rw [not_or, not_not] at hblock
      obtain ⟨target, htarget⟩ := Option.ne_none_iff_exists'.mp hblock.1
      have hrun := settle_run_allow himp htarget hblock.2 draw identity leaseId intent s
      cases hhash : canonicalHash
          (syntheticResult draw.runId (actionPayload identity intent target)) with
      | error e =>
        rw [hhash] at hrun
        exact Or.inl ⟨e, hrun⟩
      | ok resultHash =>
        rw [hhash] at hrun
        exact Or.inr (Or.inr ⟨report, target, resultHash, rfl, htarget, hblock.2, hhash, hrun⟩)

end ControlPlane

end PoiexGoc
