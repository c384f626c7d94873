/-
  A TARGET SUBSTITUTION is rejected whatever else happens on the store.

  Its request seeds, finds that the proposal names another target than the trusted one, and stops.
  For that it needs three facts (`SeedFact`), and each is one that no request ever takes away:
  the agent stays registered, the evidence stays sound because every request puts sound evidence,
  and a target carries the name it is stored under (`keeps_handle`).

  `substitution_relies` puts this together in the order of the calls: ten of them, and then the
  result the request also has when it runs alone.
-/
import PoiexGoc.Lib.Rely
import PoiexGoc.Proofs.DemoRuns
import PoiexGoc.Proofs.RequestCalls

namespace PoiexGoc

open Py Effect

/-- The facts about the seeded documents that a rejection relies on. -/
inductive SeedFact where
  | agent
  | evidence
  | target

def SeedFact.holds : SeedFact → StoreView → Prop
  | .agent, v => ∃ a, v.agent CloudDemo.agent.agentId = .ok (some a)
  | .evidence, v => ∃ e, v.evidence "ev-runtime-001" = .ok (some e) ∧
    Supports e CloudDemo.agent.agentId CloudDemo.action
  | .target, v => ∃ t, v.target CloudDemo.targetId = .ok (some t) ∧ t.targetId = CloudDemo.targetId

/-- The facts of a backend's state are those of its view. -/
def seedFacts {σ : Type} (view : σ → StoreView) (k : SeedFact) (s : σ) : Prop := k.holds (view s)

section Facts

variable [PyRuntime] {σ : Type} {h : Handler RuntimeStore PyError σ} {view : σ → StoreView}

/-- Evidence that an operation puts supports the seeded capability. -/
def PutsSound (o : StoreOp) : Prop :=
  ∀ evidence, o = .putEvidence evidence →
    Supports evidence CloudDemo.agent.agentId CloudDemo.action

theorem PutsSound.of_seeding {o : StoreOp} (ho : CloudDemo.IsSeeding o) : PutsSound o := by
  rintro evidence rfl
  exact ho

theorem PutsSound.of_request {draw : Draw} {o : StoreOp} (ho : RequestOp draw o) :
    PutsSound o := by
  rintro evidence rfl
  rcases ho with hseeding | hexecute | hread
  · exact hseeding
  · exact hexecute.elim
  · exact hread.elim

/-- No operation takes a fact away, as long as it puts sound evidence. -/
theorem keeps_handle {o : StoreOp} (ho : PutsSound o) (v : StoreView) :
    Keeps SeedFact.holds v (StoreView.handle o v).2 := by
  intro k hk
  cases o with
  | putAgent agent =>
    cases k with
    | agent =>
      -- the put may replace the agent by another one under the same id
      obtain ⟨a, ha⟩ := hk
      rcases update_eq_cases v.agent agent.agentId agent CloudDemo.agent.agentId with
        ⟨-, hself⟩ | hother
      · exact ⟨agent, hself⟩
      · exact ⟨a, hother.trans ha⟩
    | evidence => exact hk
    | target => exact hk
  | putEvidence evidence =>
    cases k with
    | agent => exact hk
    | evidence =>
      obtain ⟨e, he, hsupports⟩ := hk
      rcases update_eq_cases v.evidence evidence.evidenceId evidence "ev-runtime-001" with
        ⟨-, hself⟩ | hother
      · exact ⟨evidence, hself, ho evidence rfl⟩
      · exact ⟨e, hother.trans he, hsupports⟩
    | target => exact hk
  | putTarget target =>
    cases k with
    | agent => exact hk
    | evidence => exact hk
    | target =>
      obtain ⟨t, ht, hname⟩ := hk
      rcases update_eq_cases v.target target.targetId target CloudDemo.targetId with
        ⟨hid, hself⟩ | hother
      · exact ⟨target, hself, hid.symm⟩
      · exact ⟨t, hother.trans ht, hname⟩
  | executeSyntheticAction runId payload =>
    simp only [StoreView.handle]
    cases canonicalHash (syntheticResult runId payload) with
    | error e => exact hk
    | ok resultHash => cases k with
      | _ => exact hk
  | _ => cases k with
    | _ => exact hk

theorem keeps_op (himp : Implements h view) {draw : Draw} {o : StoreOp} (ho : RequestOp draw o)
    (s : σ) : Keeps (seedFacts view) s (h o s).2 := by
  intro k hk
  show k.holds (view (h o s).2)
  rw [(himp.refines o s ho.storable).2]
  exact keeps_handle (PutsSound.of_request ho) (view s) k hk

/-! ## The calls of the seeding, one by one -/

/-- A call does on the backend what it does on every view where the known facts hold. -/
theorem relies_op (himp : Implements h view) {o : StoreOp} (ho : o.Storable) {P : o.Result → Prop}
    {known known' : List SeedFact} {s : σ} (hs : Knows (seedFacts view) known s)
    (step : ∀ v, Knows SeedFact.holds known v →
      Yields SeedFact.holds P known' (StoreView.handle o v).1 (StoreView.handle o v).2) :
    (store.call o).Relies h (seedFacts view) (Yields (seedFacts view) P known') 1 s := by
  refine Prog.relies_perform hs fun s' hs' => ?_
  obtain ⟨hans, hview⟩ := himp.refines o s' ho
  obtain ⟨a, ha, hP, hknown⟩ := step (view s') hs'
  rw [← hview] at hknown
  exact ⟨a, hans.trans ha, hP, hknown⟩

/-- A put of the seeding keeps what is known. -/
theorem relies_put (himp : Implements h view) {o : StoreOp} (ho : CloudDemo.IsSeeding o)
    {a : o.Result} (hans : ∀ v, (StoreView.handle o v).1 = .ok a) {known : List SeedFact} {s : σ}
    (hs : Knows (seedFacts view) known s) :
    (store.call o).Relies h (seedFacts view)
      (Yields (seedFacts view) (fun _ => True) known) 1 s := by
  refine relies_op himp ho.storable hs fun v hv => ⟨a, hans v, trivial, ?_⟩
  exact hv.keeps (keeps_handle (PutsSound.of_seeding ho) v)

/-- And it may establish one more fact. -/
theorem relies_put_new (himp : Implements h view) {o : StoreOp} (ho : CloudDemo.IsSeeding o)
    {a : o.Result} (hans : ∀ v, (StoreView.handle o v).1 = .ok a) {k : SeedFact}
    (hk : ∀ v, k.holds (StoreView.handle o v).2) {known : List SeedFact} {s : σ}
    (hs : Knows (seedFacts view) known s) :
    (store.call o).Relies h (seedFacts view)
      (Yields (seedFacts view) (fun _ => True) (k :: known)) 1 s := by
  refine relies_op himp ho.storable hs fun v hv => ⟨a, hans v, trivial, ?_⟩
  exact Knows.cons (hk v)
    (hv.keeps (keeps_handle (PutsSound.of_seeding ho) v))

/-- A read of the seeding finds what is known. -/
theorem relies_read (himp : Implements h view) {o : StoreOp} (ho : o.IsRead)
    {P : o.Result → Prop} {known : List SeedFact}
    (hfound : ∀ v : StoreView, Knows SeedFact.holds known v → ∃ a, v.answers o = .ok a ∧ P a)
    {s : σ} (hs : Knows (seedFacts view) known s) :
    (store.call o).Relies h (seedFacts view) (Yields (seedFacts view) P known) 1 s := by
  refine relies_op himp ho.storable hs fun v hv => ?_
  obtain ⟨a, hans, hP⟩ := hfound v hv
  refine ⟨a, hans, hP, ?_⟩
  rw [storeView_implements.readsKeep o v ho]
  exact hv

/-- The promotion finds an agent and sound evidence, if perhaps not the ones that were put last. -/
theorem promote_relies (himp : Implements h view) {known : List SeedFact}
    (hagent : SeedFact.agent ∈ known) (hevidence : SeedFact.evidence ∈ known) {s : σ}
    (hs : Knows (seedFacts view) known s) :
    (ControlPlane.promoteObservedCapability CloudDemo.agent.agentId CloudDemo.action
      "ev-runtime-001").Relies h (seedFacts view)
        (Yields (seedFacts view) (fun _ => True) known) 3 s := by
  unfold ControlPlane.promoteObservedCapability
  refine Prog.relies_bind (relies_read himp (o := .getAgent CloudDemo.agent.agentId)
    (P := fun found => ∃ a, found = some a) trivial ?_ hs) ?_
  · intro v hv
    obtain ⟨a, ha⟩ := hv .agent hagent
    exact ⟨some a, ha, a, rfl⟩
  rintro _ s₁ ⟨agent, rfl⟩ hs₁
  refine Prog.relies_bind (relies_read himp (o := .getEvidence "ev-runtime-001")
    (P := fun found => ∃ e, found = some e ∧
      Supports e CloudDemo.agent.agentId CloudDemo.action) trivial ?_ hs₁) ?_
  · intro v hv
    obtain ⟨e, he, hsupports⟩ := hv .evidence hevidence
    exact ⟨some e, he, e, rfl, hsupports⟩
  rintro _ s₂ ⟨evidence, rfl, hsupports⟩ hs₂
  have hput : (store.putAgent (withCapability CloudDemo.action "ev-runtime-001" agent)).Relies h
      (seedFacts view) (Yields (seedFacts view) (fun _ => True) known) 1 s₂ :=
    relies_put himp (o := .putAgent _) (Or.inr trivial) (fun _ => rfl) hs₂
  rw [← ControlPlane.promote_checks hsupports (store.putAgent _)] at hput
  exact hput

/-- The seeding returns its context, and the trusted target is known. -/
theorem seed_relies (himp : Implements h view) {evidence : EvidenceItem}
    {target : MaterialTarget} (hseeds : CloudDemo.Seeds evidence target) (now : DateTime)
    (scenarioId : String) (s : σ) :
    (CloudDemo.seed now scenarioId evidence target).Relies h (seedFacts view)
      (Yields (seedFacts view) (· = CloudDemo.context now scenarioId)
        [.target, .evidence, .agent]) 9 s := by
  unfold CloudDemo.seed
  rw [hseeds.evidenceId]
  refine Prog.relies_bind (relies_put_new himp (o := .putAgent CloudDemo.agent) (k := .agent)
    (Or.inr trivial) (fun _ => rfl) (fun v => ⟨_, v.putAgent_self _⟩) (Knows.nil s)) fun _ s₁ _ hs₁ => ?_
  refine Prog.relies_bind (relies_put_new himp (o := .putEvidence evidence) (k := .evidence)
    hseeds.supports (fun _ => rfl) (fun v => ⟨evidence, ?_, hseeds.supports⟩) hs₁) fun _ s₂ _ hs₂ => ?_
  · rw [← hseeds.evidenceId]
    exact v.putEvidence_self evidence
  refine Prog.relies_bind (promote_relies himp (List.mem_cons_of_mem _ List.mem_cons_self)
    List.mem_cons_self hs₂) fun _ s₃ _ hs₃ => ?_
  refine Prog.relies_bind (relies_put_new himp (o := .putTarget target) (k := .target)
    hseeds.hashed (fun _ => rfl) (fun v => ⟨target, ?_, hseeds.targetId⟩) hs₃) fun _ s₄ _ hs₄ => ?_
  · rw [← hseeds.targetId]
    exact v.putTarget_self target
  refine Prog.relies_bind (relies_put himp (o := .putAuthorityProvenance _) (Or.inr trivial)
    (fun _ => rfl) hs₄) fun _ s₅ _ hs₅ => ?_
  refine Prog.relies_bind (relies_put himp (o := .putAuthorityProvenance _) (Or.inr trivial)
    (fun _ => rfl) hs₅) fun _ s₆ _ hs₆ => ?_
  refine Prog.relies_bind (relies_put himp (o := .putLease _) (Or.inr trivial)
    (fun _ => rfl) hs₆) fun _ s₇ _ hs₇ => ?_
  exact Prog.relies_pure rfl hs₇

/-! ## The whole request -/

/-- What a target substitution comes to, alone or not. -/
def DemoRun.rejection (request : DemoRun) : CloudDemo.DemoResult :=
  CloudDemo.rejectedResult request.case request.scenarioId
    (CloudDemo.context request.now request.scenarioId)
    (CloudDemo.defaultProposal request.case request.scenarioId)
    "planner proposal target does not match trusted target"

/-- A proposal for another target raises before it is executed. -/
theorem executeProposal_raises (himp : Implements h view) {proposal : PlannerProposal}
    (htarget : proposal.targetId ≠ CloudDemo.targetId) (cp : ControlPlane) (fuel : Nat)
    (draw : Draw) (identity : IdentityContext) (leaseId intentId : String)
    (requestedAt : DateTime) {known : List SeedFact} (hknown : SeedFact.target ∈ known) {s : σ}
    (hs : Knows (seedFacts view) known s) :
    (executeProposal cp fuel draw identity leaseId proposal CloudDemo.targetId intentId
      requestedAt).Relies h (seedFacts view)
        (Raises (· = .valueError "planner proposal target does not match trusted target")) 1 s := by
  unfold executeProposal
  refine Prog.relies_bind (relies_read himp (o := .getTarget CloudDemo.targetId)
    (P := fun found => ∃ t, found = some t ∧ t.targetId = CloudDemo.targetId) trivial ?_ hs) ?_
  · intro v hv
    obtain ⟨t, ht, hname⟩ := hv .target hknown
    exact ⟨some t, ht, t, rfl, hname⟩
  rintro _ s₁ ⟨target, rfl, hname⟩ hs₁
  have hrefused : proposalToIntent proposal intentId identity.agentId target requestedAt =
      .error (.valueError "planner proposal target does not match trusted target") := by
    rw [proposalToIntent, hname]
    exact if_pos htarget
  show Prog.Relies h _ _ 0 (store.lift (proposalToIntent _ _ _ _ _) >>= _) s₁
  rw [hrefused]
  exact Prog.relies_throw rfl

/-- A target substitution with a safe scenario id: ten calls, and then its rejection. -/
theorem substitution_relies (himp : Implements h view) {request : DemoRun}
    (hcase : request.case = "target_substitution")
    (hid : CloudDemo.matchesScenario request.scenarioId = true) (s : σ) :
    request.program.Relies h (seedFacts view)
      (Yields (seedFacts view) (· = request.rejection) []) 10 s := by
  obtain ⟨evidence, target, hseeds, heq⟩ := CloudDemo.runDemoCase_eq
    (show request.case ∈ CloudDemo.allowedCases by rw [hcase]; decide) hid request.fuel
    request.ids request.now none
  unfold DemoRun.program
  rw [heq]
  -- the case itself changes nothing
  have hprepare : (CloudDemo.prepare request.now request.scenarioId request.case evidence
      target).Relies h (seedFacts view) (Yields (seedFacts view)
        (· = CloudDemo.context request.now request.scenarioId) [.target, .evidence, .agent]) 9 s := by
    have hnothing : ∀ ctx, CloudDemo.applyCase request.case ctx = pure () := by
      intro ctx
      rw [CloudDemo.applyCase, hcase, if_neg (by decide), if_neg (by decide)]
    unfold CloudDemo.prepare
    simp only [hnothing, pure_bind, bind_pure]
    exact seed_relies himp hseeds request.now request.scenarioId s
  refine Prog.relies_bind hprepare fun ctx s₁ hctx hs₁ => ?_
  rw [hctx]
  have hother : (CloudDemo.defaultProposal request.case request.scenarioId).targetId ≠
      CloudDemo.targetId := by
    rw [hcase]
    show "pump-B" ≠ "pump-A"
    decide
  refine Prog.relies_tryCatch_error (Prog.relies_bind_error
    (executeProposal_raises himp hother _ _ _ _ _ _ _ List.mem_cons_self hs₁) _) ?_
  rintro _ s₂ rfl
  exact Prog.relies_pure rfl (Knows.nil s₂)

end Facts

end PoiexGoc
