/-
  CAPABILITY BINDINGS: what an observed capability says of the evidence it names.

  A promotion compares subject, claim and source of the stored item with what it is asked for, and
  files the item's ID with the agent.  An execution follows the id and looks at the source again.

  1. `Bound` — the observations that agents cite are about them and the capability they are filed
     under.  Promotions keep this, and so does every other call except a put of an observation of
     something else under a cited id (`Command.KeepsBindings`, `bound_run`).

  2. `allowed_evidence_binds_capability` — an ALLOW then cites such an observation.

  3. `promotion_rests_on_the_stored_item` — the hash of the item takes no part in a promotion: it is
     right when what was put was right (`EvidenceItem.Genuine`).
-/
import PoiexGoc.Proofs.StandingReceipts

namespace PoiexGoc

open Py Effect

/-! ## The bindings of a registry -/

/-- Agents are found under their ids, and the observations they cite support what they are cited
    for. -/
structure Bound (v : StoreView) : Prop where
  keyed : ∀ id agent, v.agent id = .ok (some agent) → agent.agentId = id
  supported : ∀ id agent capability evidenceId evidence, v.agent id = .ok (some agent) →
    agent.observedCapabilities.lookup capability = some evidenceId →
    v.evidence evidenceId = .ok (some evidence) → evidence.sourceType = .runtimeObservation →
    Supports evidence id capability

/-- An observation is put under an id only if it supports everything the id is cited for. -/
def KeepsBindings (v : StoreView) (item : EvidenceItem) : Prop :=
  item.sourceType = .runtimeObservation → ∀ id agent capability, v.agent id = .ok (some agent) →
    agent.observedCapabilities.lookup capability = some item.evidenceId →
    Supports item id capability

/-- The operation registers no agent and puts no evidence. -/
def StoreOp.SparesBindings : StoreOp → Prop
  | .putAgent _ | .putEvidence _ => False
  | _ => True

theorem bound_empty : Bound StoreView.empty where
  keyed := by
    intro id agent hagent
    cases Except.ok.inj hagent
  supported := by
    intro id agent capability evidenceId evidence hagent
    cases Except.ok.inj hagent

/-- A put of an agent whose own citations are supported. -/
theorem Bound.putAgent {v : StoreView} (hv : Bound v) {agent : AgentRecord}
    (hnew : ∀ capability evidenceId evidence,
      agent.observedCapabilities.lookup capability = some evidenceId →
      v.evidence evidenceId = .ok (some evidence) → evidence.sourceType = .runtimeObservation →
      Supports evidence agent.agentId capability) : Bound (v.putAgent agent) := by
  constructor
  · intro id found hfound
    rcases StoreView.found_after_put hfound with ⟨rfl, rfl⟩ | hold
    · rfl
    · exact hv.keyed id found hold
  · intro id found capability evidenceId evidence hfound hlookup hevidence hsource
    rcases StoreView.found_after_put hfound with ⟨rfl, rfl⟩ | hold
    · exact hnew capability evidenceId evidence hlookup hevidence hsource
    · exact hv.supported id found capability evidenceId evidence hold hlookup hevidence hsource

theorem Bound.putEvidence {v : StoreView} (hv : Bound v) {item : EvidenceItem}
    (hitem : KeepsBindings v item) : Bound (v.putEvidence item) := by
  refine ⟨hv.keyed, ?_⟩
  intro id agent capability evidenceId evidence hagent hlookup hevidence hsource
  rcases StoreView.found_after_put hevidence with ⟨rfl, rfl⟩ | hold
  · exact hitem hsource id agent capability hagent hlookup
  · exact hv.supported id agent capability evidenceId evidence hagent hlookup hold hsource

/-- The promotion files an id whose item was found to support the capability. -/
theorem Bound.promote {v : StoreView} (hv : Bound v) {agent : AgentRecord}
    {evidence : EvidenceItem} {agentId capability evidenceId : String}
    (hagent : v.agent agentId = .ok (some agent))
    (hevidence : v.evidence evidenceId = .ok (some evidence))
    (hsupports : Supports evidence agentId capability) :
    Bound (v.putAgent (withCapability capability evidenceId agent)) := by
  have hkey : (withCapability capability evidenceId agent).agentId = agentId :=
    hv.keyed agentId agent hagent
  refine hv.putAgent ?_
  rw [hkey]
  intro capability' evidenceId' evidence' hlookup hevidence' hsource
  by_cases hsame : capability' = capability
  · subst hsame
    have hid : evidenceId = evidenceId' :=
      Option.some.inj ((Finmap.lookup_insert _).symm.trans hlookup)
    subst hid
    rw [← Option.some.inj (Except.ok.inj (hevidence.symm.trans hevidence'))]
    exact hsupports
  · have hold : agent.observedCapabilities.lookup capability' = some evidenceId' :=
      (Finmap.lookup_insert_of_ne _ hsame).symm.trans hlookup
    exact hv.supported agentId agent capability' evidenceId' evidence' hagent hold hevidence'
      hsource

namespace Command

/-- Agents are registered without observed capabilities. -/
def RegistersUnobserved : Command → Prop
  | .operation (.putAgent agent) => agent.observedCapabilities = ∅
  | _ => True

/-- The evidence a call puts keeps the bindings of the store. -/
def KeepsBindings (v : StoreView) : Command → Prop
  | .operation (.putEvidence item) => PoiexGoc.KeepsBindings v item
  | _ => True

end Command

section Runs

variable [PyRuntime] {σ : Type} {h : Handler RuntimeStore PyError σ} {view : σ → StoreView}

theorem Bound.spared {v v' : StoreView} (hv : Bound v) {o : StoreOp} (hstep : Transition v o v')
    (ho : o.SparesBindings) : Bound v' := by
  cases hstep with
  | putAgent | putEvidence => exact ho.elim
  | _ => exact ⟨hv.keyed, hv.supported⟩

theorem bound_program (hback : Backs h view) {α : Type} {p : StoreM α}
    (hp : p.Issues StoreOp.SparesBindings) {s : σ} (hs : Bound (view s)) :
    Bound (view (p.run h s).2) :=
  Prog.run_invariant (I := fun s => Bound (view s))
    (fun o s ho hv => hv.spared (hback.transition o s) ho) hp hs

/-- One call. -/
theorem bound_command (hback : Backs h view) (fuel : Nat) {cmd : Command}
    (hregister : cmd.RegistersUnobserved) {s : σ} (hkeep : cmd.KeepsBindings (view s))
    (hs : Bound (view s)) : Bound (view ((cmd.program fuel).run h s).2) := by
  cases cmd with
  | operation o =>
    have hstep : Transition (view s) o (view ((store.call o).run h s).2) := hback.transition o s
    show Bound (view ((store.call o).run h s).2)
    generalize view ((store.call o).run h s).2 = v' at hstep
    cases hstep with
    | putAgent agent =>
      have hnone : agent.observedCapabilities = ∅ := hregister
      refine hs.putAgent ?_
      intro capability evidenceId evidence hlookup
      rw [hnone] at hlookup
      cases hlookup
    | putEvidence item => exact hs.putEvidence hkeep
    | _ => exact ⟨hs.keyed, hs.supported⟩
  | promote agentId capability evidenceId =>
    rcases ControlPlane.promote_cases hback.toImplements agentId capability evidenceId s with
      ⟨e, hraise⟩ | ⟨agent, evidence, hagent, hevidence, hsupports, hrun⟩
    · show Bound (view ((ControlPlane.promoteObservedCapability agentId capability
        evidenceId).run h s).2)
      rw [hraise]
      exact hs
    · show Bound (view ((ControlPlane.promoteObservedCapability agentId capability
        evidenceId).run h s).2)
      rw [hrun]
      show Bound (view (h (.putAgent _) s).2)
      rw [(hback.refines (.putAgent _) s trivial).2]
      exact hs.promote hagent hevidence hsupports
  | execute cp draw identity leaseId intent =>
    refine bound_program hback ((cp.execute_issues fuel draw identity leaseId intent).mono ?_) hs
    intro o ho
    cases o with
    | putAgent | putEvidence => exact ho.elim
    | _ => trivial
  | replay receiptId =>
    refine bound_program hback ((ControlPlane.replay_issues receiptId).mono ?_) hs
    intro o ho
    cases o with
    | putAgent | putEvidence => exact ho.elim
    | _ => trivial

/-- A run whose puts of evidence keep the bindings. -/
theorem bound_run (hback : Backs h view) (fuel : Nat) {cmds : List Command} {s : σ}
    (hregister : ∀ cmd ∈ cmds, cmd.RegistersUnobserved)
    (hkeep : RunMeets h fuel (fun cmd s => cmd.KeepsBindings (view s)) cmds s)
    (hs : Bound (view s)) : Bound (view (runCommands h fuel cmds s).2) := by
  refine runCommands_invariant (I := fun s => Bound (view s)) ?_ (hkeep.and_of_forall hregister) hs
  rintro cmd s ⟨hreg, hcmd⟩ hv
  exact bound_command hback fuel hreg hcmd hv

/-- Self-declared capability never reaches execution, as long as no observation is overwritten by
    one of something else while an agent cites it.  In every run from an empty store that registers
    agents without observed capabilities, an execution that returns ALLOW cites one evidence item,
    which is then an observation of the executing agent and the executed action. -/
theorem allowed_evidence_binds_capability (s₀ : Backend) (hempty : s₀.view = StoreView.empty)
    (fuel : Nat) (cmds : List Command) (hregister : ∀ cmd ∈ cmds, cmd.RegistersUnobserved)
    (hkeep : RunMeets Backend.handle fuel (fun cmd s => cmd.KeepsBindings s.view) cmds s₀)
    (cp : ControlPlane) (draw : Draw) (identity : IdentityContext) (leaseId : String)
    (intent : ActionIntent) (receipt : ExecutionReceipt)
    (hrun : ((cp.execute fuel draw identity leaseId intent).run Backend.handle
      (runCommands Backend.handle fuel cmds s₀).2).1 = .ok receipt)
    (hallow : receipt.decision = "ALLOW") :
    ∃ evidenceId evidence, receipt.registryEvidenceRefs = [evidenceId] ∧
      (runCommands Backend.handle fuel cmds s₀).2.view.evidence evidenceId =
        .ok (some evidence) ∧
      evidence.sourceType = .runtimeObservation ∧ evidence.subjectId = identity.agentId ∧
      evidence.claim = intent.actionType := by
  have hbound : Bound (runCommands Backend.handle fuel cmds s₀).2.view := by
    refine bound_run backend_backs fuel hregister hkeep ?_
    rw [hempty]
    exact bound_empty
  obtain ⟨report, agent, evidenceId, evidence, lease, target, resultHash, hadmitted, -, hreceipt, -⟩ :=
    ControlPlane.execute_allow backend_implements (Prod.ext hrun rfl) hallow
  have hsupports : Supports evidence identity.agentId intent.actionType :=
    hbound.supported _ _ _ _ _ hadmitted.registered hadmitted.observed hadmitted.evidenced
      hadmitted.observation
  refine ⟨evidenceId, evidence, ?_, hadmitted.evidenced, hsupports.source, hsupports.subject,
    hsupports.claim⟩
  rw [hreceipt]
  exact hadmitted.cited

end Runs

/-! ## The hash of an evidence item -/

section Hashes

variable [PyRuntime]

/-- An observation carries the hash that `runtime_observation` computes from its fields. -/
def EvidenceItem.Genuine (item : EvidenceItem) : Prop :=
  item.sourceType = .runtimeObservation →
    canonicalHash (EvidenceItem.observationPayload item.subjectId item.claim item.observedAt
      item.traceId) = .ok item.payloadHash

/-- What `runtime_observation` makes is genuine. -/
theorem genuine_of_runtimeObservation {evidenceId subjectId claim traceId : String}
    {observedAt : DateTime} {item : EvidenceItem}
    (hitem : EvidenceItem.runtimeObservation evidenceId subjectId claim observedAt traceId =
      .ok item) : item.Genuine := by
  obtain ⟨payloadHash, hhash, hmade⟩ := bind_eq_ok.mp hitem
  rw [← Except.ok.inj hmade]
  intro _
  exact hhash

/-- Evidence that an operation puts is genuine. -/
def StoreOp.PutsGenuine : StoreOp → Prop
  | .putEvidence item => item.Genuine
  | _ => True

/-- Evidence that a call puts is genuine. -/
def Command.PutsGenuine : Command → Prop
  | .operation o => o.PutsGenuine
  | _ => True

/-- Every stored item is genuine. -/
def AllGenuine (v : StoreView) : Prop :=
  ∀ id item, v.evidence id = .ok (some item) → item.Genuine

theorem AllGenuine.transition {v v' : StoreView} (hv : AllGenuine v) {o : StoreOp}
    (hstep : Transition v o v') (ho : o.PutsGenuine) : AllGenuine v' := by
  cases hstep with
  | putEvidence item =>
    intro id found hfound
    rcases StoreView.found_after_put hfound with ⟨-, rfl⟩ | hold
    · exact ho
    · exact hv id found hold
  | _ => exact hv

/-- Only callers put evidence. -/
theorem Command.program_putsGenuine {cmd : Command} (fuel : Nat) (hcmd : cmd.PutsGenuine) :
    (cmd.program fuel).Issues StoreOp.PutsGenuine := by
  cases cmd with
  | operation o => exact store.call_issues o hcmd
  | promote agentId capability evidenceId =>
    refine (ControlPlane.promote_issues agentId capability evidenceId).mono ?_
    rintro o (rfl | rfl | ⟨agent, rfl⟩)
    · trivial
    · trivial
    · trivial
  | execute cp draw identity leaseId intent =>
    refine (cp.execute_issues fuel draw identity leaseId intent).mono fun o ho => ?_
    cases o with
    | putEvidence item => exact ho.elim
    | _ => trivial
  | replay receiptId =>
    refine (ControlPlane.replay_issues receiptId).mono fun o ho => ?_
    cases o with
    | putEvidence item => exact ho.elim
    | _ => trivial

/-- What is stored is as genuine as what was put. -/
theorem allGenuine_run {σ : Type} {h : Handler RuntimeStore PyError σ} {view : σ → StoreView}
    (hback : Backs h view) (fuel : Nat) {cmds : List Command} {s : σ}
    (hcmds : ∀ cmd ∈ cmds, cmd.PutsGenuine) (hs : AllGenuine (view s)) :
    AllGenuine (view (runCommands h fuel cmds s).2) := by
  refine runCommands_invariant (I := fun s => AllGenuine (view s)) ?_ (runMeets_of_forall hcmds s) hs
  intro cmd s hcmd hv
  exact Prog.run_invariant (I := fun s => AllGenuine (view s))
    (fun o s ho hs => hs.transition (hback.transition o s) ho) (cmd.program_putsGenuine fuel hcmd) hv

/-- Promotion rests on the stored item.  On either backend it succeeds exactly when the agent is
    registered and the stored item is an observation of that agent and capability: the payload hash
    takes no part.  Where only genuine observations were put, what a promotion rests on has the hash
    of its fields. -/
theorem promotion_rests_on_the_stored_item :
    (∀ (s : Backend) (agentId capability evidenceId : String),
      ((ControlPlane.promoteObservedCapability agentId capability evidenceId).run
          Backend.handle s).1 = .ok () ↔
        ∃ agent evidence, s.view.agent agentId = .ok (some agent) ∧
          s.view.evidence evidenceId = .ok (some evidence) ∧ evidence.subjectId = agentId ∧
          evidence.claim = capability ∧ evidence.sourceType = .runtimeObservation) ∧
    ∀ (fuel : Nat) (cmds : List Command) (s₀ : Backend) (agentId capability evidenceId : String),
      s₀.view = StoreView.empty → (∀ cmd ∈ cmds, cmd.PutsGenuine) →
      let s := (runCommands Backend.handle fuel cmds s₀).2
      ((ControlPlane.promoteObservedCapability agentId capability evidenceId).run
          Backend.handle s).1 = .ok () →
        ∃ evidence, s.view.evidence evidenceId = .ok (some evidence) ∧
          canonicalHash (EvidenceItem.observationPayload evidence.subjectId evidence.claim
            evidence.observedAt evidence.traceId) = .ok evidence.payloadHash := by
  constructor
  · intro s agentId capability evidenceId
    constructor
    · intro hok
      rcases ControlPlane.promote_cases backend_implements agentId capability evidenceId s with
        ⟨e, hraise⟩ | ⟨agent, evidence, hagent, hevidence, hsupports, -⟩
      · rw [hraise] at hok
        cases hok
      · exact ⟨agent, evidence, hagent, hevidence, hsupports.subject, hsupports.claim,
          hsupports.source⟩
    · rintro ⟨agent, evidence, hagent, hevidence, hsubject, hclaim, hsource⟩
      rw [ControlPlane.promote_run backend_implements hagent hevidence ⟨hsubject, hclaim, hsource⟩]
      exact (backend_implements.refines (.putAgent _) s trivial).1
  · intro fuel cmds s₀ agentId capability evidenceId hempty hcmds s hok
    have hall : AllGenuine s.view := by
      refine allGenuine_run backend_backs fuel hcmds ?_
      rw [hempty]
      intro id item hitem
      cases Except.ok.inj hitem
    rcases ControlPlane.promote_cases backend_implements agentId capability evidenceId s with
      ⟨e, hraise⟩ | ⟨agent, evidence, -, hevidence, hsupports, -⟩
    · rw [hraise] at hok
      cases hok
    · exact ⟨evidence, hevidence, hall evidenceId evidence hevidence hsupports.source⟩

end Hashes

namespace CloudDemo

/-- An observation of another agent and capability, under the id of the mission's evidence. -/
def foreignEvidence : EvidenceItem :=
  { missionEvidence with subjectId := "agent-inspect-02", claim := "close_valve" }

end CloudDemo

open CloudDemo in
/-- The mission's agent still executes when its evidence is overwritten after the promotion. -/
theorem overwritten_evidence_is_allowed :
    let cmds := missionCalls ++ [.operation (.putEvidence foreignEvidence)]
    let s := (runCommands Backend.handle 3 cmds (.memory {})).2
    (∀ cmd ∈ cmds, cmd.RegistersUnobserved) ∧
    ((controlPlane.execute 3 missionDraw (identity "s1") "lease-001" missionIntent).run
      Backend.handle s).1.map (fun receipt => (receipt.decision, receipt.registryEvidenceRefs)) =
        .ok ("ALLOW", ["ev-runtime-001"]) ∧
    s.view.evidence "ev-runtime-001" = .ok (some foreignEvidence) ∧
    foreignEvidence.subjectId ≠ (identity "s1").agentId ∧
    foreignEvidence.claim ≠ missionIntent.actionType := by
  refine ⟨?_, ?_⟩
  · intro cmd hcmd
    simp only [missionCalls, List.cons_append, List.nil_append, List.mem_cons, List.not_mem_nil,
      or_false] at hcmd
    rcases hcmd with rfl | rfl | rfl | rfl | rfl | rfl | rfl | rfl <;> trivial
  · decide +kernel

open CloudDemo in
/-- The mission itself overwrites nothing. -/
theorem mission_evidence_binds_capability :
    ∃ evidenceId evidence, missionReceipt.registryEvidenceRefs = [evidenceId] ∧
      (runCommands Backend.handle 3 missionCalls (.memory {})).2.view.evidence evidenceId =
        .ok (some evidence) ∧
      evidence.sourceType = .runtimeObservation ∧
      evidence.subjectId = (identity "s1").agentId ∧ evidence.claim = missionIntent.actionType := by
  have hregister : ∀ cmd ∈ missionCalls, cmd.RegistersUnobserved := by
    intro cmd hcmd
    simp only [missionCalls, List.mem_cons, List.not_mem_nil, or_false] at hcmd
    rcases hcmd with rfl | rfl | rfl | rfl | rfl | rfl | rfl <;> trivial
  have hkeep : RunMeets Backend.handle 3 (fun cmd s => cmd.KeepsBindings s.view) missionCalls
      (.memory {}) := by
    refine ⟨trivial, ?_, trivial, trivial, trivial, trivial, trivial, trivial⟩
    -- only the agent has been registered so far, and it cites nothing
    intro _ id registered capability hregistered hlookup
    have hview : (Backend.handle (.putAgent agent) (.memory {})).2.view =
        StoreView.empty.putAgent agent :=
      (backend_implements.refines (.putAgent agent) (.memory {}) trivial).2
    replace hregistered : (Backend.handle (.putAgent agent) (.memory {})).2.view.agent id =
      .ok (some registered) := hregistered
    rw [hview] at hregistered
    rcases StoreView.found_after_put hregistered with ⟨-, rfl⟩ | hnone
    · cases hlookup
    · cases Except.ok.inj hnone
  exact allowed_evidence_binds_capability (.memory {}) rfl 3 missionCalls hregister hkeep
    controlPlane missionDraw (identity "s1") "lease-001" missionIntent missionReceipt
    (by decide +kernel) rfl

namespace CloudDemo

/-- A self declaration of the mission's agent, with the hash the caller gave it. -/
def selfDeclaration : EvidenceItem :=
  { missionEvidence with sourceType := .selfDeclaration, payloadHash := "self-claim" }

/-- The same item with its source type rewritten. -/
def rewrittenDeclaration : EvidenceItem :=
  { selfDeclaration with sourceType := .runtimeObservation }

end CloudDemo

open CloudDemo in
/-- A rewritten self declaration makes the capability observed, whatever hash it carries. -/
theorem rewritten_declaration_is_promoted :
    let before := (runCommands Backend.handle 3 [.operation (.putAgent agent),
      .operation (.putEvidence selfDeclaration)] (.memory {})).2
    let s := (Backend.handle (.putEvidence rewrittenDeclaration) before).2
    (∃ e, ((ControlPlane.promoteObservedCapability agent.agentId action "ev-runtime-001").run
        Backend.handle before).1 = .error e) ∧
    ((ControlPlane.promoteObservedCapability agent.agentId action "ev-runtime-001").run
        Backend.handle s).1 = .ok () ∧
    s.view.evidence "ev-runtime-001" = .ok (some rewrittenDeclaration) ∧
    canonicalHash (EvidenceItem.observationPayload rewrittenDeclaration.subjectId
      rewrittenDeclaration.claim rewrittenDeclaration.observedAt rewrittenDeclaration.traceId) ≠
        .ok rewrittenDeclaration.payloadHash := by
  refine ⟨⟨.valueError "only runtime observation may create OBSERVED capability", ?_⟩, ?_⟩
  · decide +kernel
  · decide +kernel

open CloudDemo in
/-- The mission's promotion rests on evidence with the hash of its fields. -/
theorem mission_promotion_is_genuine :
    ∃ evidence, (runCommands Backend.handle 3 missionCalls
        (.memory {})).2.view.evidence "ev-runtime-001" = .ok (some evidence) ∧
      canonicalHash (EvidenceItem.observationPayload evidence.subjectId evidence.claim
        evidence.observedAt evidence.traceId) = .ok evidence.payloadHash := by
  have hmade : EvidenceItem.runtimeObservation "ev-runtime-001" agent.agentId action missionTime
      "trace-observed-s1" = .ok missionEvidence := by decide +kernel
  refine promotion_rests_on_the_stored_item.2 3 missionCalls (.memory {}) agent.agentId action
    "ev-runtime-001" rfl ?_ (by decide +kernel)
  intro cmd hcmd
  simp only [missionCalls, List.mem_cons, List.not_mem_nil, or_false] at hcmd
  rcases hcmd with rfl | rfl | rfl | rfl | rfl | rfl | rfl
  · trivial
  · exact genuine_of_runtimeObservation hmade
  all_goals trivial

end PoiexGoc
