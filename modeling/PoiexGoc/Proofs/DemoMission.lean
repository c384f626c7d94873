/-
  The MISSION of a demo request: what its seeding establishes, and what the gates say about it.

  1. The seeding — `prepare_run`: whatever is stored, the records a request relies on are the ones
     it has written itself (`Mission`).  Nothing else of the prior content is ever looked at.

  2. The gates — `gates_of_mission`: on a mission, the report is a function of the case and of the
     proposed action (`demoReasons`).  The delegation chain has two records, so two iterations of
     the provenance loop are enough.
-/
import PoiexGoc.Proofs.ReplayReports
import PoiexGoc.Runtime.CloudDemo

namespace PoiexGoc

open Py Effect

namespace CloudDemo

/-! ## The records a request relies on -/

/-- The seeded agent once its capability was observed. -/
def promotedAgent : AgentRecord := withCapability action "ev-runtime-001" agent

/-- The agent a case leaves in the registry. -/
def caseAgent (case : String) : AgentRecord :=
  if case = "policy_epoch_stale" then
    { promotedAgent with currentEpoch := promotedAgent.currentEpoch + 1 }
  else promotedAgent

/-- The lease a case leaves in the registry. -/
def caseLease (case : String) (now : DateTime) : AuthorityLease :=
  if case = "revoked_authority" then { lease now with revokedAt := some (now.addSeconds (-1)) }
  else lease now

/-- What a store answers for the ids of the demo, given the agent and the lease it has for them. -/
structure Mission (v : StoreView) (now : DateTime) (agent : AgentRecord) (lease : AuthorityLease) :
    Prop where
  agent : v.agent CloudDemo.agent.agentId = .ok (some agent)
  lease : v.lease (CloudDemo.lease now).leaseId = .ok (some lease)
  root : v.provenance (provenanceRoot now).provenanceId = .ok (some (provenanceRoot now))
  child : v.provenance (provenanceChild now).provenanceId = .ok (some (provenanceChild now))
  evidence : ∃ e, v.evidence "ev-runtime-001" = .ok (some e) ∧
    e.sourceType = .runtimeObservation
  target : ∃ t, v.target targetId = .ok (some t) ∧ t.targetId = targetId ∧
    t.allowedActions = {action}

/-- The context the seeding returns. -/
def context (now : DateTime) (scenarioId : String) : DemoContext :=
  { controlPlane, identity := identity scenarioId, leaseId := (lease now).leaseId
    authorizedTargetId := targetId, now }

/-! ## What the cases change -/

theorem caseAgent_observed (case capability : String) :
    (caseAgent case).observedCapabilities.lookup capability =
      if capability = action then some "ev-runtime-001" else none := by
  have hsame : (caseAgent case).observedCapabilities = promotedAgent.observedCapabilities := by
    unfold caseAgent
    split
    · rfl
    · rfl
  rw [hsame]
  by_cases hcap : capability = action
  · rw [if_pos hcap, hcap]
    exact Finmap.lookup_insert _
  · rw [if_neg hcap]
    exact (Finmap.lookup_insert_of_ne _ hcap).trans (Finmap.lookup_empty _)

theorem caseLease_revoked {case : String} {now : DateTime} :
    revokedBy (caseLease case now).revokedAt now ↔ case = "revoked_authority" := by
  unfold caseLease
  split
  · rename_i hcase
    refine ⟨fun _ => hcase, fun _ => ⟨now.addSeconds (-1), rfl, ?_⟩⟩
    rw [DateTime.le_def, DateTime.addSeconds_micros]
    omega
  · rename_i hcase
    exact ⟨fun ⟨_, hsome, _⟩ => (nomatch hsome), fun h => absurd h hcase⟩

theorem caseLease_stale {case : String} {now : DateTime} :
    (caseLease case now).epoch ≠ (caseAgent case).currentEpoch ↔ case = "policy_epoch_stale" := by
  have hepoch : (caseLease case now).epoch = 7 := by
    unfold caseLease
    split
    · rfl
    · rfl
  rw [hepoch]
  unfold caseAgent
  split
  · rename_i hcase
    refine ⟨fun _ => hcase, fun _ => ?_⟩
    decide
  · rename_i hcase
    exact ⟨fun h => absurd rfl h, fun h => absurd h hcase⟩

/-- Whatever the case, the lease is the seeded one but for its revocation. -/
theorem caseLease_eq (case : String) (now : DateTime) :
    caseLease case now = { lease now with revokedAt := (caseLease case now).revokedAt } := by
  unfold caseLease
  split
  · rfl
  · rfl

/-- The reasons about the lease: the action, and what the case has changed. -/
def caseReasons (case actionType : String) : List String :=
  reasonIf (actionType ≠ action) "AUTHORITY_OUT_OF_SCOPE" ++
  reasonIf (case = "revoked_authority") "AUTHORITY_REVOKED" ++
  reasonIf (case = "policy_epoch_stale") "AUTHORITY_EPOCH_STALE"

/-- The reasons of a request: they depend on the case and on the proposed action alone. -/
def demoReasons (case actionType : String) : List String :=
  reasonIf (actionType ≠ action) "CAPABILITY_NOT_OBSERVED" ++ caseReasons case actionType ++
  reasonIf (actionType ≠ action) "TARGET_ACTION_NOT_ALLOWED"

theorem demoReasons_eq_nil {case actionType : String} :
    demoReasons case actionType = [] ↔
      actionType = action ∧ case ≠ "revoked_authority" ∧ case ≠ "policy_epoch_stale" := by
  simp only [demoReasons, caseReasons, List.append_eq_nil_iff, reasonIf_eq_nil, ne_eq, not_not]
  tauto

theorem revoked_mem_demoReasons (actionType : String) :
    "AUTHORITY_REVOKED" ∈ demoReasons "revoked_authority" actionType := by
  simp only [demoReasons, caseReasons, List.mem_append, mem_reasonIf, true_and, true_or, or_true]

theorem stale_mem_demoReasons (actionType : String) :
    "AUTHORITY_EPOCH_STALE" ∈ demoReasons "policy_epoch_stale" actionType := by
  simp only [demoReasons, caseReasons, List.mem_append, mem_reasonIf, true_and, true_or, or_true]

/-- The report of the gates: it names the target, and the evidence of the seeded action only. -/
def demoReport (case actionType : String) (target : MaterialTarget) : ControlPlane.GateReport where
  evidenceRefs := if actionType = action then ["ev-runtime-001"] else []
  target := some target
  reasons := demoReasons case actionType

theorem mem_demoReport_evidenceRefs (case : String) (target : MaterialTarget)
    {actionType id : String} (hid : id ∈ (demoReport case actionType target).evidenceRefs) :
    id = "ev-runtime-001" := by
  unfold demoReport at hid
  simp only at hid
  split at hid
  · exact List.mem_singleton.mp hid
  · cases hid

/-- The lease's own fields, checked against the agent of the case. -/
theorem leaseReasons_of_case (case : String) (now : DateTime) (scenarioId : String)
    (intent : ActionIntent) :
    ControlPlane.leaseReasons (identity scenarioId) intent (caseAgent case) (caseLease case now)
        now =
      caseReasons case intent.actionType := by
  have hholder : ¬ (caseLease case now).agentId ≠ (identity scenarioId).agentId := by
    rw [caseLease_eq]
    exact not_not_intro rfl
  have hscope : intent.actionType ∉ (caseLease case now).scope ↔ intent.actionType ≠ action := by
    rw [caseLease_eq]
    exact not_congr Finset.mem_singleton
  have hunexpired : ¬ (caseLease case now).expiresAt ≤ now := by
    rw [caseLease_eq, DateTime.le_def]
    show ¬ now.micros + 1200 * 1000000 ≤ now.micros
    omega
  rw [ControlPlane.leaseReasons, reasonIf_eq_nil.mpr hholder, reasonIf_eq_nil.mpr hunexpired,
    reasonIf_congr hscope, reasonIf_congr caseLease_revoked, reasonIf_congr caseLease_stale,
    List.nil_append, List.append_nil, caseReasons]

/-- An intent bound to the trusted target fails at most the target's list of actions. -/
theorem targetReasons_of_bound {intent : ActionIntent} {target : MaterialTarget}
    (hallowed : target.allowedActions = {action})
    (hhash : intent.targetHash = target.targetHash) :
    ControlPlane.targetReasons intent (some target) =
      reasonIf (intent.actionType ≠ action) "TARGET_ACTION_NOT_ALLOWED" := by
  have haction : intent.actionType ∉ target.allowedActions ↔ intent.actionType ≠ action := by
    rw [hallowed]
    exact not_congr Finset.mem_singleton
  rw [ControlPlane.targetReasons, reasonIf_eq_nil.mpr (not_not_intro hhash),
    reasonIf_congr haction, List.nil_append]

/-- A record issued in the past and not revoked has no reason of time. -/
theorem timeReasons_of_seeded {now : DateTime} {record : AuthorityProvenanceRecord} {k : Int}
    (hk : 0 ≤ k) (hissued : record.issuedAt = now.addSeconds (-k))
    (hrevoked : record.revokedAt = none) : timeReasons now record = [] := by
  refine timeReasons_eq_nil.mpr ⟨?_, ?_⟩
  · rw [hissued, DateTime.le_def, DateTime.addSeconds_micros]
    omega
  · rintro ⟨at', hsome, -⟩
    cases hrevoked.symm.trans hsome

/-- The child backs the lease of every case. -/
theorem recordReasons_child (case : String) (now : DateTime) :
    recordReasons (caseLease case now) now true none (provenanceChild now) = [] := by
  have htime : timeReasons now (provenanceChild now) = [] :=
    timeReasons_of_seeded (show (0 : Int) ≤ 600 by decide) rfl rfl
  have hbinding : leaseBindingReasons (caseLease case now) (provenanceChild now) = [] := by
    rw [caseLease_eq]
    exact leaseBindingReasons_eq_nil.mpr ⟨rfl, rfl, rfl, Finset.Subset.refl _⟩
  rw [recordReasons, htime, if_pos rfl, hbinding]
  rfl

/-- The root delegates to the child. -/
theorem recordReasons_root (case : String) (now : DateTime) :
    recordReasons (caseLease case now) now false (some (provenanceChild now))
      (provenanceRoot now) = [] := by
  have htime : timeReasons now (provenanceRoot now) = [] :=
    timeReasons_of_seeded (show (0 : Int) ≤ 3600 by decide) rfl rfl
  have hdelegated : delegationReasons (some (provenanceChild now)) (provenanceRoot now) = [] := by
    refine delegationReasons_eq_nil.mpr ?_
    rintro c hc
    rw [← Option.some.inj hc]
    exact ⟨rfl, Finset.Subset.refl _⟩
  rw [recordReasons, htime, hdelegated]
  rfl

/-- The two records of the delegation chain pass every check of the provenance gate. -/
theorem provenance_of_mission {now : DateTime} {v : StoreView} {foundAgent : AgentRecord}
    {foundLease : AuthorityLease} (hv : Mission v now foundAgent foundLease) (case : String)
    {fuel : Nat} (hfuel : 2 ≤ fuel) :
    ∃ lineage, verifyAuthorityProvenance v.provenance fuel (caseLease case now) now
        {trustedRoot} = .ok ⟨true, [], lineage⟩ := by
  obtain ⟨n, rfl⟩ : ∃ n, fuel = n + 2 := ⟨fuel - 2, by omega⟩
  -- the first iteration reads the child, the second the root, where the loop ends
  have hid : truthy (caseLease case now).provenanceId =
      some (provenanceChild now).provenanceId := by
    rw [caseLease_eq]
    rfl
  have hlink : walk v.provenance (caseLease case now) now {trustedRoot} (n + 2)
      (WalkState.initial (provenanceChild now).provenanceId) = _ :=
    walk_of_link (Finset.notMem_empty _) hv.child rfl
  have hunvisited : (provenanceRoot now).provenanceId ∉
      insert (provenanceChild now).provenanceId (∅ : Finset String) := by
    show "prov-root" ∉ insert "prov-child" (∅ : Finset String)
    decide
  have hend := fun reasons lineage => @walk_of_root v.provenance (caseLease case now) now
    {trustedRoot} n ⟨reasons, lineage, _, _, some (provenanceChild now), false⟩ hunvisited _
    hv.root rfl
  refine ⟨[(provenanceChild now).provenanceId, (provenanceRoot now).provenanceId], ?_⟩
  unfold verifyAuthorityProvenance
  rw [hid]
  show (walk _ _ _ _ _ _ >>= _) = _
  rw [hlink]
  simp only [WalkState.initial, recordReasons_child, List.append_nil]
  rw [hend]
  simp only [recordReasons_root, List.append_nil]
  rfl

theorem leaseAnswer_of_mission {case : String} {now : DateTime} {v : StoreView}
    (hv : Mission v now (caseAgent case) (caseLease case now)) {fuel : Nat} (hfuel : 2 ≤ fuel)
    (scenarioId : String) (intent : ActionIntent) :
    ControlPlane.leaseAnswer v controlPlane fuel now (identity scenarioId) intent
        (caseAgent case) (some (caseLease case now)) =
      .ok (caseReasons case intent.actionType) := by
  obtain ⟨lineage, hverify⟩ := provenance_of_mission hv case hfuel
  show (verifyAuthorityProvenance v.provenance fuel (caseLease case now) now {trustedRoot} >>=
    _) = _
  rw [hverify, ok_bind, leaseReasons_of_case, List.append_nil]
  rfl

/-- Only the seeded action has an observed capability, with the seeded evidence behind it. -/
theorem capability_of_mission {case : String} {now : DateTime} {v : StoreView}
    {foundLease : AuthorityLease} (hv : Mission v now (caseAgent case) foundLease) (actionType : String) :
    ∃ found, ControlPlane.evidenceAnswer v
        (truthy ((caseAgent case).observedCapabilities.lookup actionType)) = .ok found ∧
      ControlPlane.capabilityReasons found =
        reasonIf (actionType ≠ action) "CAPABILITY_NOT_OBSERVED" ∧
      (truthy ((caseAgent case).observedCapabilities.lookup actionType)).toList =
        if actionType = action then ["ev-runtime-001"] else [] := by
  obtain ⟨e, hevidence, hsource⟩ := hv.evidence
  rw [caseAgent_observed]
  by_cases haction : actionType = action
  · have hcapability : ControlPlane.capabilityReasons (some e) = [] :=
      ControlPlane.capabilityReasons_eq_nil.mpr ⟨e, rfl, hsource⟩
    rw [if_pos haction, if_pos haction, truthy_some (by decide),
      reasonIf_eq_nil.mpr (not_not_intro haction)]
    exact ⟨some e, hevidence, hcapability, rfl⟩
  · rw [if_neg haction, if_neg haction, reasonIf, if_pos haction]
    exact ⟨none, rfl, rfl, rfl⟩

theorem validateScenarioId_of_matches {scenarioId : String}
    (hid : matchesScenario scenarioId = true) : validateScenarioId scenarioId = .ok scenarioId :=
  if_pos hid

end CloudDemo

namespace CloudDemo

variable [PyRuntime] {σ : Type} {h : Handler RuntimeStore PyError σ} {view : σ → StoreView}
  {now : DateTime} {scenarioId case : String}

/-! ## The seeding -/

/-- The seeding with its two hashed records given. -/
def seed (now : DateTime) (scenarioId : String) (evidence : EvidenceItem)
    (target : MaterialTarget) : StoreM DemoContext := do
  store.putAgent agent
  store.putEvidence evidence
  ControlPlane.promoteObservedCapability agent.agentId action evidence.evidenceId
  store.putTarget target
  store.putAuthorityProvenance (provenanceRoot now)
  store.putAuthorityProvenance (provenanceChild now)
  store.putLease (lease now)
  return context now scenarioId

/-- The operations of a seeding: reads of the registry, and puts of records that every backend
    takes; the evidence it puts is that of the seeded capability. -/
def IsSeeding : StoreOp → Prop
  | .putEvidence evidence => Supports evidence agent.agentId action
  | .putTarget target => target.SelfConsistent
  | o => o.IsRegistryRead ∨ o.IsRegistryPut

theorem IsSeeding.read_or_put {o : StoreOp} (ho : IsSeeding o) :
    o.IsRegistryRead ∨ o.IsRegistryPut := by
  cases o with
  | putEvidence | putTarget => exact Or.inr trivial
  | _ => exact ho

theorem IsSeeding.of_registryRead {o : StoreOp} (ho : o.IsRegistryRead) : IsSeeding o := by
  cases o with
  | putEvidence | putTarget => exact ho.elim
  | _ => exact Or.inl ho

theorem IsSeeding.storable {o : StoreOp} (ho : IsSeeding o) : o.Storable := by
  cases o with
  | putTarget target => exact ho
  | _ => trivial

/-- The evidence and the target the seeding makes. -/
structure Seeds (evidence : EvidenceItem) (target : MaterialTarget) : Prop where
  evidenceId : evidence.evidenceId = "ev-runtime-001"
  supports : Supports evidence agent.agentId action
  targetId : target.targetId = CloudDemo.targetId
  allowed : target.allowedActions = {action}
  hashed : target.SelfConsistent

/-- The target that every request seeds. -/
structure SeededByAll (target : MaterialTarget) : Prop where
  targetId : target.targetId = CloudDemo.targetId
  hashed : target.SelfConsistent
  boots : ∀ now scenarioId, matchesScenario scenarioId = true → ∃ evidence, Seeds evidence target ∧
    bootstrapSyntheticMission now scenarioId = seed now scenarioId evidence target

/-- Neither hash of the seeding can fail, so a request with a valid scenario id seeds; and nothing
    in the target is the request's own. -/
theorem exists_seededByAll : ∃ target, SeededByAll target := by
  obtain ⟨targetHash, htarget, hself⟩ := MaterialTarget.create_isOk
    (show WithinDigits maxStrDigits 3 by decide) targetId "synthetic_equipment" "plant-demo/pump-A"
    {action}
  refine ⟨⟨targetId, "synthetic_equipment", "plant-demo/pump-A", 3, {action}, targetHash⟩, rfl,
    hself, fun now scenarioId hid => ?_⟩
  obtain ⟨payloadHash, hevidence⟩ := EvidenceItem.runtimeObservation_isOk "ev-runtime-001"
    agent.agentId action now ("trace-observed-" ++ scenarioId)
  refine ⟨⟨"ev-runtime-001", agent.agentId, action, .runtimeObservation, now, payloadHash,
      "trace-observed-" ++ scenarioId⟩, ⟨rfl, ⟨rfl, rfl, rfl⟩, rfl, rfl, hself⟩, ?_⟩
  unfold bootstrapSyntheticMission
  simp only [validateScenarioId_of_matches hid, hevidence, htarget, Prog.done_ok_bind]
  rfl

theorem bootstrap_eq_seed (now : DateTime) (hid : matchesScenario scenarioId = true) :
    ∃ evidence target, Seeds evidence target ∧
      bootstrapSyntheticMission now scenarioId = seed now scenarioId evidence target := by
  obtain ⟨target, hall⟩ := exists_seededByAll
  obtain ⟨evidence, hseeds, hboot⟩ := hall.boots now scenarioId hid
  exact ⟨evidence, target, hseeds, hboot⟩

omit [PyRuntime] in
/-- The seeding reads the registry for its promotion, and puts the seeded records. -/
theorem seed_calls {P : StoreOp → Prop} {evidence : EvidenceItem} {target : MaterialTarget}
    {now : DateTime} (hread : ∀ o : StoreOp, o.IsRegistryRead → P o)
    (hagent : ∀ agent, P (.putAgent agent)) (hevidence : P (.putEvidence evidence))
    (htarget : P (.putTarget target)) (hroot : P (.putAuthorityProvenance (provenanceRoot now)))
    (hchild : P (.putAuthorityProvenance (provenanceChild now)))
    (hlease : P (.putLease (lease now))) (scenarioId : String) :
    (seed now scenarioId evidence target).Issues P := by
  unfold seed
  refine Prog.issues_bind (store.call_issues _ (hagent _)) fun _ => ?_
  refine Prog.issues_bind (store.call_issues _ hevidence) fun _ => ?_
  refine Prog.issues_bind ?_ fun _ => ?_
  · refine (ControlPlane.promote_issues _ _ _).mono ?_
    rintro o (rfl | rfl | ⟨agent, rfl⟩)
    · exact hread _ trivial
    · exact hread _ trivial
    · exact hagent agent
  refine Prog.issues_bind (store.call_issues _ htarget) fun _ => ?_
  refine Prog.issues_bind (store.call_issues _ hroot) fun _ => ?_
  refine Prog.issues_bind (store.call_issues _ hchild) fun _ => ?_
  exact Prog.issues_bind (store.call_issues _ hlease) fun _ => trivial

theorem seed_issues {evidence : EvidenceItem} {target : MaterialTarget}
    (hseeds : Seeds evidence target) (now : DateTime) (scenarioId : String) :
    (seed now scenarioId evidence target).Issues IsSeeding :=
  seed_calls (fun _ => IsSeeding.of_registryRead) (fun _ => Or.inr trivial) hseeds.supports
    hseeds.hashed (Or.inr trivial) (Or.inr trivial) (Or.inr trivial) scenarioId

/-- A seeding leaves a registry that decodes, with two provenance records of its own. -/
theorem bootstrap_decodes {σ : Type} {h : Handler RuntimeStore PyError σ} {view : σ → StoreView}
    (himp : Implements h view) {provenanceIds : Finset String} {s : σ}
    (hdec : ControlPlane.RegistryDecodes (view s) provenanceIds)
    (hids : {"prov-root", "prov-child"} ⊆ provenanceIds) (now : DateTime)
    (hid : matchesScenario scenarioId = true) :
    ControlPlane.RegistryDecodes (view ((bootstrapSyntheticMission now scenarioId).run h s).2)
      provenanceIds := by
  obtain ⟨evidence, target, hseeds, heq⟩ := bootstrap_eq_seed now hid
  have hissues : (seed now scenarioId evidence target).Issues fun o : StoreOp => o.Storable ∧
      ∀ record, o = .putAuthorityProvenance record → record.provenanceId ∈ provenanceIds := by
    refine seed_calls (fun o ho => ⟨ho.isRead.storable, ?_⟩) (fun _ => ⟨trivial, nofun⟩)
      ⟨trivial, nofun⟩ ⟨hseeds.hashed, nofun⟩ ⟨trivial, ?_⟩ ⟨trivial, ?_⟩ ⟨trivial, nofun⟩
      scenarioId
    · rintro record rfl
      exact ho.elim
    · rintro _ ⟨⟩
      exact hids (Finset.mem_insert_self _ _)
    · rintro _ ⟨⟩
      exact hids (Finset.mem_insert_of_mem (Finset.mem_singleton_self _))
  rw [heq]
  refine Prog.run_invariant (I := fun s => ControlPlane.RegistryDecodes (view s) provenanceIds) ?_
    hissues hdec
  intro o s ho hs
  rw [(himp.refines o s ho.1).2]
  exact hs.handle ho.2

/-- What the seeding establishes, on a view.  The promotion is the one step that reads: it finds
    the agent and the evidence that were just put. -/
theorem seed_view {evidence : EvidenceItem} {target : MaterialTarget}
    (hseeds : Seeds evidence target) (v : StoreView) :
    ∃ v', (seed now scenarioId evidence target).run StoreView.handle v =
        (.ok (context now scenarioId), v') ∧
      Mission v' now promotedAgent (lease now) := by
  have hagent : ((v.putAgent agent).putEvidence evidence).agent agent.agentId =
      .ok (some agent) := v.putAgent_self agent
  have hevidence : ((v.putAgent agent).putEvidence evidence).evidence "ev-runtime-001" =
      .ok (some evidence) := by
    rw [← hseeds.evidenceId]
    exact StoreView.putEvidence_self _ _
  have hpromote := ControlPlane.promote_run (s := (v.putAgent agent).putEvidence evidence)
    storeView_implements hagent hevidence hseeds.supports
  have hroot : (provenanceRoot now).provenanceId ≠ (provenanceChild now).provenanceId := by
    show "prov-root" ≠ "prov-child"
    decide
  refine ⟨((((((v.putAgent agent).putEvidence evidence).putAgent promotedAgent).putTarget
    target).putProvenance (provenanceRoot now)).putProvenance (provenanceChild now)).putLease
      (lease now), ?_, ?_⟩
  · unfold seed
    simp only [hseeds.evidenceId]
    show (ControlPlane.promoteObservedCapability agent.agentId action "ev-runtime-001" >>=
      _).run StoreView.handle ((v.putAgent agent).putEvidence evidence) = _
    rw [Prog.run_bind, hpromote]
    rfl
  · constructor
    · exact ((v.putAgent agent).putEvidence evidence).putAgent_self promotedAgent
    · exact StoreView.putLease_self _ (lease now)
    · simp only [StoreView.putProvenance, StoreView.putLease, Function.update_of_ne hroot,
        Function.update_self]
    · simp only [StoreView.putProvenance, StoreView.putLease, Function.update_self]
    · refine ⟨evidence, ?_, hseeds.supports.source⟩
      rw [← hseeds.evidenceId]
      exact (v.putAgent agent).putEvidence_self evidence
    · refine ⟨target, ?_, hseeds.targetId, hseeds.allowed⟩
      rw [← hseeds.targetId]
      exact (((v.putAgent agent).putEvidence evidence).putAgent promotedAgent).putTarget_self target

omit [PyRuntime] in
/-- A case reads one record and puts it back. -/
theorem applyCase_calls {P : StoreOp → Prop} (hgetLease : ∀ id, P (.getLease id))
    (hputLease : ∀ lease, P (.putLease lease)) (hgetAgent : ∀ id, P (.getAgent id))
    (hputAgent : ∀ agent, P (.putAgent agent)) (case : String) (ctx : DemoContext) :
    (applyCase case ctx).Issues P := by
  unfold applyCase
  split
  · refine Prog.issues_bind (store.call_issues _ (hgetLease _)) fun found => ?_
    cases found with
    | none => trivial
    | some lease => exact store.call_issues _ (hputLease _)
  · split
    · refine Prog.issues_bind (store.call_issues _ (hgetAgent _)) fun found => ?_
      cases found with
      | none => trivial
      | some agent => exact store.call_issues _ (hputAgent _)
    · trivial

/-- The case's change, on a seeded view. -/
theorem applyCase_view {v : StoreView} (hv : Mission v now promotedAgent (lease now))
    (case scenarioId : String) :
    ∃ v', (applyCase case (context now scenarioId)).run StoreView.handle v = (.ok (), v') ∧
      Mission v' now (caseAgent case) (caseLease case now) := by
  by_cases hrevoked : case = "revoked_authority"
  · have hlease : (store.getLease (context now scenarioId).leaseId).run StoreView.handle v =
        (.ok (some (lease now)), v) := Prod.ext hv.lease rfl
    refine ⟨v.putLease (caseLease case now), ?_, ?_⟩
    · rw [applyCase, if_pos hrevoked, Prog.run_bind_ok hlease, caseLease, if_pos hrevoked]
      rfl
    · have hagent : caseAgent case = promotedAgent := by
        subst hrevoked
        rfl
      have hid : (caseLease case now).leaseId = (lease now).leaseId := by rw [caseLease_eq]
      refine ⟨hagent ▸ hv.agent, ?_, hv.root, hv.child, hv.evidence, hv.target⟩
      rw [← hid]
      exact v.putLease_self _
  · have hleaseEq : caseLease case now = lease now := if_neg hrevoked
    rw [hleaseEq, applyCase, if_neg hrevoked]
    by_cases hstale : case = "policy_epoch_stale"
    · have hagent : (store.getAgent (context now scenarioId).identity.agentId).run
          StoreView.handle v = (.ok (some promotedAgent), v) := Prod.ext hv.agent rfl
      refine ⟨v.putAgent (caseAgent case), ?_, ?_⟩
      · rw [if_pos hstale, Prog.run_bind_ok hagent, caseAgent, if_pos hstale]
        rfl
      · have hid : (caseAgent case).agentId = agent.agentId := by
          subst hstale
          rfl
        refine ⟨?_, hv.lease, hv.root, hv.child, hv.evidence, hv.target⟩
        rw [← hid]
        exact v.putAgent_self _
    · rw [if_neg hstale, caseAgent, if_neg hstale]
      exact ⟨v, rfl, hv⟩

/-! ## The gates on a mission -/

/-- The part of a request before its proposal is looked at. -/
def prepare (now : DateTime) (scenarioId case : String) (evidence : EvidenceItem)
    (target : MaterialTarget) : StoreM DemoContext := do
  let ctx ← seed now scenarioId evidence target
  applyCase case ctx
  return ctx

/-- A valid request prepares its mission and then governs its proposal. -/
theorem runDemoCase_of_seed {evidence : EvidenceItem} {target : MaterialTarget}
    (hcase : case ∈ allowedCases) (hid : matchesScenario scenarioId = true)
    (hboot : bootstrapSyntheticMission now scenarioId = seed now scenarioId evidence target)
    (fuel : Nat) (ids : FreshIds) (proposal : Option PlannerProposal) :
    runDemoCase fuel ids case now scenarioId proposal =
      (prepare now scenarioId case evidence target >>= fun ctx =>
        governProposal fuel ids case scenarioId ctx
          (effectiveProposal case scenarioId proposal)) := by
  unfold runDemoCase prepare
  rw [if_neg (not_not_intro hcase)]
  simp only [validateScenarioId_of_matches hid, hboot, Prog.done_ok_bind, pure_bind, bind_assoc]

theorem runDemoCase_eq (hcase : case ∈ allowedCases) (hid : matchesScenario scenarioId = true)
    (fuel : Nat) (ids : FreshIds) (now : DateTime) (proposal : Option PlannerProposal) :
    ∃ evidence target, Seeds evidence target ∧
      runDemoCase fuel ids case now scenarioId proposal =
        (prepare now scenarioId case evidence target >>= fun ctx =>
          governProposal fuel ids case scenarioId ctx (effectiveProposal case scenarioId proposal))
    := by
  obtain ⟨evidence, target, hseeds, hboot⟩ := bootstrap_eq_seed now hid
  exact ⟨evidence, target, hseeds, runDemoCase_of_seed hcase hid hboot fuel ids proposal⟩

/-- A request with an unknown case or an unsafe scenario id is refused before it touches the
    store. -/
theorem runDemoCase_refused (hinvalid : ¬ (case ∈ allowedCases ∧ matchesScenario scenarioId = true))
    (fuel : Nat) (ids : FreshIds) (now : DateTime) (proposal : Option PlannerProposal) :
    ∃ e, runDemoCase fuel ids case now scenarioId proposal = Prog.done (.error e) := by
  unfold runDemoCase
  by_cases hcase : case ∈ allowedCases
  · have hid : ¬ matchesScenario scenarioId = true := fun hid => hinvalid ⟨hcase, hid⟩
    rw [if_neg (not_not_intro hcase), validateScenarioId, if_neg hid]
    exact ⟨_, rfl⟩
  · rw [if_pos hcase]
    exact ⟨_, rfl⟩

theorem prepare_issues {evidence : EvidenceItem} {target : MaterialTarget}
    (hseeds : Seeds evidence target) (now : DateTime) (scenarioId case : String) :
    (prepare now scenarioId case evidence target).Issues IsSeeding :=
  Prog.issues_bind (seed_issues hseeds now scenarioId) fun ctx =>
    Prog.issues_bind (applyCase_calls (fun _ => Or.inl trivial) (fun _ => Or.inr trivial)
      (fun _ => Or.inl trivial) (fun _ => Or.inr trivial) case ctx) fun _ => trivial

/-- Whatever is stored, the preparation returns the context and leaves its mission. -/
theorem prepare_run (himp : Implements h view) {evidence : EvidenceItem} {target : MaterialTarget}
    (hseeds : Seeds evidence target) (now : DateTime) (scenarioId case : String) (s : σ) :
    ∃ s', (prepare now scenarioId case evidence target).run h s =
        (.ok (context now scenarioId), s') ∧
      Mission (view s') now (caseAgent case) (caseLease case now) := by
  obtain ⟨v, hseed, hseeded⟩ := @seed_view _ now scenarioId evidence target hseeds (view s)
  obtain ⟨v', hcase, hmission⟩ := applyCase_view hseeded case scenarioId
  have hview : (prepare now scenarioId case evidence target).run StoreView.handle (view s) =
      (.ok (context now scenarioId), v') := by
    rw [prepare, Prog.run_bind_ok hseed, Prog.run_bind_ok hcase]
    rfl
  have hrun := himp.refines.run
    ((prepare_issues hseeds now scenarioId case).mono fun _ => IsSeeding.storable) s
  rw [hview] at hrun
  exact ⟨_, Prod.ext hrun.1 rfl, hrun.2 ▸ hmission⟩

/-- The report of the gates on a mission, for an intent bound to the trusted target. -/
theorem gates_of_mission {v : StoreView}
    (hv : Mission v now (caseAgent case) (caseLease case now)) {fuel : Nat} (hfuel : 2 ≤ fuel)
    {target : MaterialTarget} (htarget : v.target targetId = .ok (some target))
    (hallowed : target.allowedActions = {action}) {intent : ActionIntent}
    (hagentId : intent.agentId = agent.agentId) (htargetId : intent.targetId = targetId)
    (hhash : intent.targetHash = target.targetHash) (scenarioId : String) :
    (ControlPlane.gates controlPlane fuel now (identity scenarioId) (lease now).leaseId
        intent).eval v.answers =
      .ok (demoReport case intent.actionType target) := by
  have hidentity : ControlPlane.identityReasons (identity scenarioId) (some (caseAgent case))
      intent = [] := ControlPlane.identityReasons_eq_nil.mpr ⟨rfl, Option.some_ne_none _, hagentId⟩
  obtain ⟨found, hevidence, hcapability, hrefs⟩ := capability_of_mission hv intent.actionType
  rw [ControlPlane.gates_eval_of_agent hv.agent hidentity, ControlPlane.materialGates_eval,
    hv.lease, htargetId, htarget]
  simp only [hevidence, ok_bind, leaseAnswer_of_mission hv hfuel, hcapability, hrefs,
    targetReasons_of_bound hallowed hhash]
  rfl

end CloudDemo

end PoiexGoc
