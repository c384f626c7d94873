/-
  A request of the demo service, whatever other requests run BESIDE it.

  Requests overwrite each other's agent and lease, so that what one of them decides may change.
  What it answers still stands:

  1. The seeding ends, and from then on every seeded document is there (`prepare_serves`).

  2. The gates then find everything they look for, so the proposal is decided one way or the other
     (`gates_serve`), and the receipt is stored with all that its replay looks for
     (`execute_serves`).

  3. As long as a receipt stands (`Stands`), its replay passes, even when its reads are answered by
     different states of the store (`replay_serves`).

  4. `request_serves` puts this together in the order of the calls: a valid request never raises,
     makes at most twenty-six calls, and its receipt stands for good.
-/
import PoiexGoc.Lib.RelyGuarantee
import PoiexGoc.Proofs.ServedFacts

namespace PoiexGoc

open Py Effect

namespace CloudDemo

section Serving

variable [PyRuntime] {σ : Type} {h : Handler RuntimeStore PyError σ} {view : σ → StoreView}
  {seededTarget : MaterialTarget} {draw : Draw} {s : σ}

/-- What the other requests keep for the request with this draw. -/
def servedFacts (view : σ → StoreView) (seededTarget : MaterialTarget) (draw : Draw)
    (k : ServedFact) (s : σ) : Prop :=
  k.Owned draw ∧ k.holds seededTarget (view s)

omit [PyRuntime] in
theorem stable_holds {k : ServedFact} (hk : k.Owned draw) :
    Stable (servedFacts view seededTarget draw) fun s => k.holds seededTarget (view s) :=
  fun _ _ hkeep hs => (hkeep k ⟨hk, hs⟩).2

omit [PyRuntime] in
theorem stable_knows {known : List ServedFact} (hknown : ∀ k ∈ known, k.IsSeeded) :
    Stable (servedFacts view seededTarget draw)
      fun s => Knows (ServedFact.holds seededTarget) known (view s) :=
  fun s s' hkeep hs k hk =>
    stable_holds ((hknown k hk).owned draw) s s' hkeep (hs k hk)

/-! ## One call -/

/-- A call does on the backend what it does on every view in `J`. -/
theorem serves_call (himp : Implements h view) {o : StoreOp} (ho : ServedOp seededTarget draw o)
    (hstorable : o.Storable) {J : StoreView → Prop}
    (hJ : Stable (servedFacts view seededTarget draw) fun s => J (view s)) (hs : J (view s))
    {R : o.Result → StoreView → Prop}
    (hR : ∀ a, Stable (servedFacts view seededTarget draw) fun s => R a (view s))
    (step : ∀ v, J v → ∃ a, (StoreView.handle o v).1 = .ok a ∧ R a (StoreView.handle o v).2) :
    (store.call o).Assures h (servedFacts view seededTarget draw) (ServedOp seededTarget draw)
      (Returns fun a s => R a (view s)) 1 s := by
  refine Prog.assures_perform ho hJ hs hR fun s' hs' => ?_
  obtain ⟨hans, hview⟩ := himp.refines o s' hstorable
  obtain ⟨a, ha, hafter⟩ := step (view s') hs'
  rw [← hview] at hafter
  exact ⟨a, hans.trans ha, hafter⟩

/-- A put of the seeding establishes its fact and keeps what is known. -/
theorem serves_put (himp : Implements h view) {o : StoreOp} (ho : ServedOp seededTarget draw o)
    (hstorable : o.Storable) {known : List ServedFact} (hknown : ∀ k ∈ known, k.IsSeeded)
    (hs : Knows (ServedFact.holds seededTarget) known (view s)) {a : o.Result}
    (hans : ∀ v, (StoreView.handle o v).1 = .ok a) {k : ServedFact} (hk : k.IsSeeded)
    (hnew : ∀ v, k.holds seededTarget (StoreView.handle o v).2) :
    (store.call o).Assures h (servedFacts view seededTarget draw) (ServedOp seededTarget draw)
      (Returns fun _ s => Knows (ServedFact.holds seededTarget) (k :: known) (view s)) 1 s := by
  have hall : ∀ k' ∈ k :: known, k'.IsSeeded := List.forall_mem_cons.mpr ⟨hk, hknown⟩
  refine serves_call himp ho hstorable (stable_knows hknown) hs (fun _ => stable_knows hall)
    fun v hv => ⟨a, hans v, Knows.cons (hnew v) fun k' hk' => ?_⟩
  exact ServedFact.holds_handle ho ((hknown k' hk').apart draw) (hv k' hk')

/-- A put that establishes nothing new. -/
theorem serves_put_known (himp : Implements h view) {o : StoreOp}
    (ho : ServedOp seededTarget draw o) (hstorable : o.Storable) {known : List ServedFact}
    (hknown : ∀ k ∈ known, k.IsSeeded)
    (hs : Knows (ServedFact.holds seededTarget) known (view s)) {a : o.Result}
    (hans : ∀ v, (StoreView.handle o v).1 = .ok a) :
    (store.call o).Assures h (servedFacts view seededTarget draw) (ServedOp seededTarget draw)
      (Returns fun _ s => Knows (ServedFact.holds seededTarget) known (view s)) 1 s :=
  serves_call himp ho hstorable (stable_knows hknown) hs (fun _ => stable_knows hknown)
    fun v hv => ⟨a, hans v, fun k hk =>
      ServedFact.holds_handle ho ((hknown k hk).apart draw) (hv k hk)⟩

/-- A read finds what holds where it is made. -/
theorem serves_read (himp : Implements h view) {o : StoreOp} (ho : o.IsRead)
    {J : StoreView → Prop}
    (hJ : Stable (servedFacts view seededTarget draw) fun s => J (view s)) (hs : J (view s))
    {R : o.Result → Prop} (hfound : ∀ v : StoreView, J v → ∃ a, v.answers o = .ok a ∧ R a) :
    (store.call o).Assures h (servedFacts view seededTarget draw) (ServedOp seededTarget draw)
      (Returns fun a s => R a ∧ J (view s)) 1 s := by
  refine serves_call himp (R := fun a v => R a ∧ J v) (ServedOp.of_isRead ho) ho.storable hJ hs
    (fun a => hJ.and_left (R a)) fun v hv => ?_
  obtain ⟨a, hans, ha⟩ := hfound v hv
  refine ⟨a, hans, ha, ?_⟩
  rw [storeView_implements.readsKeep o v ho]
  exact hv

/-! ## The seeding -/

omit [PyRuntime] in
theorem stable_seeded :
    Stable (servedFacts view seededTarget draw) fun s => Seeded seededTarget (view s) :=
  stable_knows isSeeded_of_mem

omit [PyRuntime] in
theorem observesSeeded_agent : ObservesSeeded agent := by
  intro capability id hid
  cases (Finmap.lookup_empty capability).symm.trans hid

omit [PyRuntime] in
theorem ObservesSeeded.withCapability {a : AgentRecord} (ha : ObservesSeeded a) :
    ObservesSeeded (withCapability action "ev-runtime-001" a) := by
  intro capability id hid
  have hlookup : (a.observedCapabilities.insert action "ev-runtime-001").lookup capability =
      some id := hid
  by_cases heq : capability = action
  · rw [heq, Finmap.lookup_insert] at hlookup
    exact (Option.some.inj hlookup).symm
  · rw [Finmap.lookup_insert_of_ne _ heq] at hlookup
    exact ha capability id hlookup

/-- The promotion finds an agent and sound evidence, if perhaps not the ones that were put last. -/
theorem promote_serves (himp : Implements h view)
    (hs : Knows (ServedFact.holds seededTarget) [.seededEvidence, .seededAgent] (view s)) :
    (ControlPlane.promoteObservedCapability agent.agentId action "ev-runtime-001").Assures h
      (servedFacts view seededTarget draw) (ServedOp seededTarget draw)
      (Returns fun _ s =>
        Knows (ServedFact.holds seededTarget) [.seededEvidence, .seededAgent] (view s)) 3 s := by
  have hknown : ∀ k ∈ [ServedFact.seededEvidence, .seededAgent], k.IsSeeded := by
    simp [ServedFact.IsSeeded]
  have hstable := @stable_knows _ view seededTarget draw _ hknown
  unfold ControlPlane.promoteObservedCapability
  refine Prog.assures_bind (serves_read himp (o := .getAgent agent.agentId)
    (R := fun found => ∃ a, found = some a ∧ ObservesSeeded a) trivial hstable hs ?_) ?_
  · intro v hv
    obtain ⟨a, ha, hobserves⟩ := hv .seededAgent (by simp)
    exact ⟨some a, ha, a, rfl, hobserves⟩
  rintro _ s₁ ⟨⟨a, rfl, hobserves⟩, hs₁⟩
  refine Prog.assures_bind (serves_read himp (o := .getEvidence "ev-runtime-001")
    (R := fun found => ∃ e, found = some e ∧ Supports e agent.agentId action) trivial hstable hs₁
    ?_) ?_
  · intro v hv
    obtain ⟨e, he, hsupports⟩ := hv .seededEvidence (by simp)
    exact ⟨some e, he, e, rfl, hsupports⟩
  rintro _ s₂ ⟨⟨evidence, rfl, hsupports⟩, hs₂⟩
  have hput : (store.putAgent (withCapability action "ev-runtime-001" a)).Assures h
      (servedFacts view seededTarget draw) (ServedOp seededTarget draw) (Returns fun _ s =>
        Knows (ServedFact.holds seededTarget) [.seededEvidence, .seededAgent] (view s)) 1 s₂ :=
    serves_put_known himp (o := .putAgent _) hobserves.withCapability trivial hknown hs₂
      fun _ => rfl
  rw [← ControlPlane.promote_checks hsupports (store.putAgent _)] at hput
  exact hput

/-- The seeding returns its context, and all seeded documents are there. -/
theorem seed_serves (himp : Implements h view) {evidence : EvidenceItem}
    (hseeds : Seeds evidence seededTarget) (now : DateTime) (scenarioId : String) (s : σ) :
    (seed now scenarioId evidence seededTarget).Assures h (servedFacts view seededTarget draw)
      (ServedOp seededTarget draw)
      (Returns fun ctx s => ctx = context now scenarioId ∧ Seeded seededTarget (view s)) 9 s := by
  unfold seed
  rw [hseeds.evidenceId]
  refine Prog.assures_bind (serves_put himp (o := .putAgent agent) (k := .seededAgent)
    observesSeeded_agent trivial (show ∀ k ∈ [], ServedFact.IsSeeded k from fun _ hk => nomatch hk)
    (show Knows (ServedFact.holds seededTarget) [] (view s) from Knows.nil _) (fun _ => rfl)
    trivial fun v => ⟨_, v.putAgent_self _, observesSeeded_agent⟩) fun _ s₁ hs₁ => ?_
  refine Prog.assures_bind (serves_put himp (o := .putEvidence evidence) (k := .seededEvidence)
    hseeds.supports trivial (by simp [ServedFact.IsSeeded]) hs₁ (fun _ => rfl) trivial
    fun v => ⟨evidence, ?_, hseeds.supports⟩) fun _ s₂ hs₂ => ?_
  · rw [← hseeds.evidenceId]
    exact v.putEvidence_self evidence
  refine Prog.assures_bind (promote_serves himp hs₂) fun _ s₃ hs₃ => ?_
  refine Prog.assures_bind (serves_put himp (o := .putTarget seededTarget) (k := .seededTarget)
    rfl hseeds.hashed (by simp [ServedFact.IsSeeded]) hs₃ (fun _ => rfl) trivial
    fun v => ?_) fun _ s₄ hs₄ => ?_
  · show ((v.putTarget seededTarget).target targetId) = _
    rw [← hseeds.targetId]
    exact v.putTarget_self seededTarget
  refine Prog.assures_bind (serves_put himp (o := .putAuthorityProvenance (provenanceRoot now))
    (k := .seededRoot) ⟨now, Or.inl rfl⟩ trivial (by simp [ServedFact.IsSeeded]) hs₄ (fun _ => rfl)
    trivial fun v => ⟨now, Function.update_self (provenanceRoot now).provenanceId _ v.provenance⟩)
    fun _ s₅ hs₅ => ?_
  refine Prog.assures_bind (serves_put himp (o := .putAuthorityProvenance (provenanceChild now))
    (k := .seededChild) ⟨now, Or.inr rfl⟩ trivial (by simp [ServedFact.IsSeeded]) hs₅ (fun _ => rfl)
    trivial fun v => ⟨now, Function.update_self (provenanceChild now).provenanceId _ v.provenance⟩)
    fun _ s₆ hs₆ => ?_
  refine Prog.assures_bind (serves_put himp (o := .putLease (lease now)) (k := .seededLease)
    rfl trivial (by simp [ServedFact.IsSeeded]) hs₆ (fun _ => rfl) trivial
    fun v => ⟨lease now, v.putLease_self _, rfl⟩) fun _ s₇ hs₇ => ?_
  exact Prog.assures_pure (stable_seeded.and_left _) ⟨rfl, hs₇⟩

/-- What the case changes leaves every seeded document there. -/
theorem applyCase_serves (himp : Implements h view) (case scenarioId : String) (now : DateTime)
    (hs : Seeded seededTarget (view s)) :
    (applyCase case (context now scenarioId)).Assures h (servedFacts view seededTarget draw)
      (ServedOp seededTarget draw) (Returns fun _ s => Seeded seededTarget (view s)) 2 s := by
  unfold applyCase
  by_cases hrevoked : case = "revoked_authority"
  · rw [if_pos hrevoked]
    refine Prog.assures_bind (serves_read himp (o := .getLease "lease-001")
      (R := fun found => ∃ l, found = some l ∧ NamesSeeded l) trivial stable_seeded hs ?_) ?_
    · intro v hv
      obtain ⟨l, hl, hnames⟩ := hv .seededLease (by simp)
      exact ⟨some l, hl, l, rfl, hnames⟩
    rintro _ s₁ ⟨⟨l, rfl, hnames⟩, hs₁⟩
    exact serves_put_known himp
      (o := .putLease { l with revokedAt := some (now.addSeconds (-1)) }) hnames trivial isSeeded_of_mem hs₁
      fun _ => rfl
  · rw [if_neg hrevoked]
    by_cases hstale : case = "policy_epoch_stale"
    · rw [if_pos hstale]
      refine Prog.assures_bind (serves_read himp (o := .getAgent agent.agentId)
        (R := fun found => ∃ a, found = some a ∧ ObservesSeeded a) trivial stable_seeded hs ?_) ?_
      · intro v hv
        obtain ⟨a, ha, hobserves⟩ := hv .seededAgent (by simp)
        exact ⟨some a, ha, a, rfl, hobserves⟩
      rintro _ s₁ ⟨⟨a, rfl, hobserves⟩, hs₁⟩
      exact serves_put_known himp
        (o := .putAgent { a with currentEpoch := a.currentEpoch + 1 }) hobserves trivial isSeeded_of_mem hs₁
        fun _ => rfl
    · rw [if_neg hstale]
      exact Prog.assures_pure stable_seeded hs

/-- The part of a request before its proposal is looked at. -/
theorem prepare_serves (himp : Implements h view) {evidence : EvidenceItem}
    (hseeds : Seeds evidence seededTarget) (now : DateTime) (scenarioId case : String) (s : σ) :
    (prepare now scenarioId case evidence seededTarget).Assures h
      (servedFacts view seededTarget draw) (ServedOp seededTarget draw)
      (Returns fun ctx s => ctx = context now scenarioId ∧ Seeded seededTarget (view s)) 11 s := by
  refine Prog.assures_bind (seed_serves himp hseeds now scenarioId s) ?_
  rintro _ s₁ ⟨rfl, hs₁⟩
  refine Prog.assures_bind (applyCase_serves himp case scenarioId now hs₁) fun _ s₂ hs₂ => ?_
  exact Prog.assures_pure (stable_seeded.and_left _) ⟨rfl, hs₂⟩

/-! ## The gates -/

section Gates

variable {fuel : Nat}

/-- An iteration of the loop that finds a record with this parent, or a root. -/
theorem walk_serves (himp : Implements h view) {n m : Nat} {l : AuthorityLease}
    {now : DateTime} {roots : Finset String} {st : WalkState}
    (hunvisited : st.currentId ∉ st.visited) (parent : Option String)
    (hfound : ∀ v, Seeded seededTarget v → ∃ record,
      v.provenance st.currentId = .ok (some record) ∧ record.parentProvenanceId = parent)
    (hs : Seeded seededTarget (view s))
    (rest : ∀ id reasons lineage record s', parent = some id → Seeded seededTarget (view s') →
      (walk (fun id => store.getAuthorityProvenance id) l now roots n
        ⟨reasons, lineage, insert st.currentId st.visited, id, some record, false⟩).Assures h
          (servedFacts view seededTarget draw) (ServedOp seededTarget draw)
          (Returns fun _ s => Seeded seededTarget (view s)) m s') :
    (walk (fun id => store.getAuthorityProvenance id) l now roots (n + 1) st).Assures h
      (servedFacts view seededTarget draw) (ServedOp seededTarget draw)
      (Returns fun _ s => Seeded seededTarget (view s)) (m + 1) s := by
  rw [walk, if_neg hunvisited]
  refine Prog.assures_bind (serves_read himp (o := .getAuthorityProvenance st.currentId)
    (R := fun found => ∃ record, found = some record ∧ record.parentProvenanceId = parent)
    trivial stable_seeded hs ?_) ?_
  · intro v hv
    obtain ⟨record, hrecord, hparent⟩ := hfound v hv
    exact ⟨_, hrecord, record, rfl, hparent⟩
  rintro _ s₁ ⟨⟨record, rfl, hparent⟩, hs₁⟩
  cases parent with
  | none =>
    simp only [hparent]
    exact Prog.assures_pure stable_seeded hs₁
  | some id =>
    simp only [hparent]
    exact rest id _ _ record s₁ rfl hs₁

/-- The seeded delegation has two records, of whatever times they are. -/
theorem readProvenance_serves (himp : Implements h view) {l : AuthorityLease}
    (hnames : NamesSeeded l) (hfuel : 2 ≤ fuel) (now : DateTime) (roots : Finset String)
    (hs : Seeded seededTarget (view s)) :
    (ControlPlane.readProvenance fuel l now roots).Assures h (servedFacts view seededTarget draw)
      (ServedOp seededTarget draw) (Returns fun _ s => Seeded seededTarget (view s)) 2 s := by
  obtain ⟨n, rfl⟩ : ∃ n, fuel = n + 2 := ⟨fuel - 2, by omega⟩
  have hchild : truthy l.provenanceId = some "prov-child" := by
    rw [hnames]
    exact truthy_some (by decide)
  unfold ControlPlane.readProvenance verifyAuthorityProvenance
  rw [hchild]
  refine Prog.assures_bind (m := 0) (n := 2) (R := fun _ s => Seeded seededTarget (view s)) ?_
    fun _ s₁ hs₁ => Prog.assures_pure stable_seeded hs₁
  refine walk_serves himp (Finset.notMem_empty _) (some "prov-root") ?_ hs ?_
  · intro v hv
    obtain ⟨t, ht⟩ := hv .seededChild (by simp)
    exact ⟨_, ht, rfl⟩
  -- the child names the root, which has not been visited yet
  rintro _ reasons lineage record s₁ hroot hs₁
  rw [← Option.some.inj hroot]
  refine walk_serves himp (m := 0) ?_ none ?_ hs₁ fun _ _ _ _ _ hnone => nomatch hnone
  · show "prov-root" ∉ (insert "prov-child" ∅ : Finset String)
    decide
  · intro v hv
    obtain ⟨t, ht⟩ := hv .seededRoot (by simp)
    exact ⟨_, ht, rfl⟩

theorem leaseGates_serves (himp : Implements h view) {l : AuthorityLease} (hnames : NamesSeeded l)
    (hfuel : 2 ≤ fuel) (cp : ControlPlane) (now : DateTime) (identity : IdentityContext)
    (intent : ActionIntent) (a : AgentRecord) (hs : Seeded seededTarget (view s)) :
    (ControlPlane.leaseGates cp fuel now identity intent a (some l)).Assures h
      (servedFacts view seededTarget draw) (ServedOp seededTarget draw)
      (Returns fun _ s => Seeded seededTarget (view s)) 2 s := by
  rw [ControlPlane.leaseGates]
  by_cases hprovenance : cp.requireAuthorityProvenance
  · rw [if_pos hprovenance]
    exact Prog.assures_bind (readProvenance_serves himp hnames hfuel now _ hs)
      fun _ s₁ hs₁ => Prog.assures_pure (n := 0) stable_seeded hs₁
  · rw [if_neg hprovenance]
    exact Prog.assures_pure stable_seeded hs

theorem readEvidence_serves (himp : Implements h view) {a : AgentRecord}
    (hobserves : ObservesSeeded a) (actionType : String) (hs : Seeded seededTarget (view s)) :
    (ControlPlane.readEvidence (truthy (a.observedCapabilities.lookup actionType))).Assures h
      (servedFacts view seededTarget draw) (ServedOp seededTarget draw)
      (Returns fun _ s => Seeded seededTarget (view s)) 1 s := by
  cases hid : truthy (a.observedCapabilities.lookup actionType) with
  | none => exact Prog.assures_pure stable_seeded hs
  | some id =>
    have hseeded : id = "ev-runtime-001" := hobserves actionType id (truthy_eq_some.mp hid).1
    rw [hseeded]
    refine (serves_read himp (o := .getEvidence "ev-runtime-001") (R := fun _ => True) trivial
      stable_seeded hs fun v hv => ?_).mono ?_
    · obtain ⟨e, he, -⟩ := hv .seededEvidence (by simp)
      exact ⟨_, he, trivial⟩
    · rintro r s ⟨found, hr, -, hs⟩
      exact ⟨found, hr, hs⟩

/-- What the gates find: the seeded target, and the seeded evidence if any. -/
structure FindsSeeded (target : MaterialTarget) (report : ControlPlane.GateReport) : Prop where
  target : report.target = some target
  evidence : ∀ id ∈ report.evidenceRefs, id = "ev-runtime-001"
  one : report.evidenceRefs.length ≤ 1

/-- The gates end with a report. -/
theorem gates_serve (himp : Implements h view) (hfuel : 2 ≤ fuel) (cp : ControlPlane)
    (now : DateTime) (scenarioId : String) {intent : ActionIntent}
    (hagent : intent.agentId = agent.agentId) (htarget : intent.targetId = targetId)
    (hs : Seeded seededTarget (view s)) :
    (ControlPlane.gates cp fuel now (identity scenarioId) "lease-001" intent).Assures h
      (servedFacts view seededTarget draw) (ServedOp seededTarget draw)
      (Returns fun report s => FindsSeeded seededTarget report ∧ Seeded seededTarget (view s)) 6
      s := by
  unfold ControlPlane.gates
  refine Prog.assures_bind (serves_read himp (o := .getAgent agent.agentId)
    (R := fun found => ∃ a, found = some a ∧ ObservesSeeded a) trivial stable_seeded hs ?_) ?_
  · intro v hv
    obtain ⟨a, ha, hobserves⟩ := hv .seededAgent (by simp)
    exact ⟨some a, ha, a, rfl, hobserves⟩
  rintro _ s₁ ⟨⟨a, rfl, hobserves⟩, hs₁⟩
  have hidentity : ControlPlane.identityReasons (identity scenarioId) (some a) intent = [] :=
    ControlPlane.identityReasons_eq_nil.mpr ⟨rfl, Option.some_ne_none a, hagent⟩
  rw [hidentity]
  show Prog.Assures h _ _ _ (ControlPlane.materialGates cp fuel now _ _ intent a) 5 s₁
  unfold ControlPlane.materialGates
  refine Prog.assures_bind (readEvidence_serves himp hobserves intent.actionType hs₁)
    fun _ s₂ hs₂ => ?_
  refine Prog.assures_bind (serves_read himp (o := .getLease "lease-001")
    (R := fun found => ∃ l, found = some l ∧ NamesSeeded l) trivial stable_seeded hs₂ ?_) ?_
  · intro v hv
    obtain ⟨l, hl, hnames⟩ := hv .seededLease (by simp)
    exact ⟨some l, hl, l, rfl, hnames⟩
  rintro _ s₃ ⟨⟨l, rfl, hnames⟩, hs₃⟩
  refine Prog.assures_bind (leaseGates_serves himp hnames hfuel cp now _ intent a hs₃)
    fun _ s₄ hs₄ => ?_
  refine Prog.assures_bind (m := 0) (serves_read himp (o := .getTarget intent.targetId)
    (R := (· = some seededTarget)) trivial stable_seeded hs₄ ?_) ?_
  · intro v hv
    have hfound : v.target targetId = .ok (some seededTarget) := hv .seededTarget (by simp)
    rw [← htarget] at hfound
    exact ⟨_, hfound, rfl⟩
  rintro _ s₅ ⟨rfl, hs₅⟩
  refine Prog.assures_pure (stable_seeded.and_left _) ⟨⟨rfl, fun id hid => ?_, ?_⟩, hs₅⟩
  · have hsome := Option.mem_toList.mp hid
    exact hobserves intent.actionType id (truthy_eq_some.mp hsome).1
  · cases truthy (a.observedCapabilities.lookup intent.actionType) with
    | none => exact Nat.zero_le 1
    | some id => exact Nat.le_refl 1

end Gates

/-! ## The replay of a receipt that stands -/

/-- The receipt is stored, with everything its replay looks for. -/
structure Stands (receipt : ExecutionReceipt) (v : StoreView) : Prop where
  stored : v.receipt receipt.receiptId = .ok (some receipt)
  reconstructable : ControlPlane.Reconstructable v receipt

section Replays

variable {receipt : ExecutionReceipt} {J : StoreView → Prop}

theorem leaseMismatches_serves (himp : Implements h view)
    (hJ : Stable (servedFacts view seededTarget draw) fun s => J (view s))
    (hstands : ∀ v, J v → Stands receipt v) (hs : J (view s)) :
    (ControlPlane.leaseMismatches receipt).Assures h (servedFacts view seededTarget draw)
      (ServedOp seededTarget draw) (Returns fun found s => found = [] ∧ J (view s)) 1 s := by
  unfold ControlPlane.leaseMismatches
  cases hid : truthy receipt.leaseId with
  | none => exact Prog.assures_pure (hJ.and_left _) ⟨rfl, hs⟩
  | some leaseId =>
    refine Prog.assures_bind (m := 0) (serves_read himp (o := .getLease leaseId)
      (R := fun found => ∃ l, found = some l) trivial hJ hs ?_) ?_
    · intro v hv
      obtain ⟨l, hl⟩ := (hstands v hv).reconstructable.lease leaseId hid
      exact ⟨some l, hl, l, rfl⟩
    · rintro _ s₁ ⟨⟨l, rfl⟩, hs₁⟩
      exact Prog.assures_pure (hJ.and_left _) ⟨reasonIf_eq_nil.mpr (Option.some_ne_none l), hs₁⟩

/-- Induction on the references. -/
theorem missingEvidence_serves (himp : Implements h view)
    (hJ : Stable (servedFacts view seededTarget draw) fun s => J (view s))
    (hstands : ∀ v, J v → Stands receipt v) {ids : List String}
    (hids : ∀ id ∈ ids, id ∈ receipt.registryEvidenceRefs) (hs : J (view s)) :
    (ControlPlane.missingEvidence ids).Assures h (servedFacts view seededTarget draw)
      (ServedOp seededTarget draw) (Returns fun found s => found = [] ∧ J (view s)) ids.length
      s := by
  induction ids generalizing s with
  | nil => exact Prog.assures_pure (hJ.and_left _) ⟨rfl, hs⟩
  | cons id ids ih =>
    obtain ⟨hid, hrest⟩ := List.forall_mem_cons.mp hids
    unfold ControlPlane.missingEvidence
    refine Prog.assures_bind (serves_read himp (o := .getEvidence id)
      (R := fun found => ∃ e, found = some e) trivial hJ hs ?_) ?_
    · intro v hv
      obtain ⟨e, he⟩ := (hstands v hv).reconstructable.evidence id hid
      exact ⟨some e, he, e, rfl⟩
    · rintro _ s₁ ⟨⟨e, rfl⟩, hs₁⟩
      refine Prog.assures_bind (m := 0) (ih hrest hs₁) ?_ |>.le (by omega)
      rintro _ s₂ ⟨rfl, hs₂⟩
      refine Prog.assures_pure (hJ.and_left _) ⟨?_, hs₂⟩
      rw [reasonIf_eq_nil.mpr (Option.some_ne_none e)]
      rfl

theorem targetMismatches_serves (himp : Implements h view)
    (hJ : Stable (servedFacts view seededTarget draw) fun s => J (view s))
    (hstands : ∀ v, J v → Stands receipt v) (hs : J (view s)) :
    (ControlPlane.targetMismatches receipt).Assures h (servedFacts view seededTarget draw)
      (ServedOp seededTarget draw) (Returns fun found s => found = [] ∧ J (view s)) 1 s := by
  unfold ControlPlane.targetMismatches
  cases hid : truthy receipt.targetId with
  | none => exact Prog.assures_pure (hJ.and_left _) ⟨rfl, hs⟩
  | some id =>
    refine Prog.assures_bind (m := 0) (serves_read himp (o := .getTarget id)
      (R := fun found => ∃ t, found = some t ∧ receipt.targetHash = some t.targetHash)
      trivial hJ hs ?_) ?_
    · intro v hv
      obtain ⟨t, ht, hhash⟩ := (hstands v hv).reconstructable.target id hid
      exact ⟨some t, ht, t, rfl, hhash⟩
    · rintro _ s₁ ⟨⟨t, rfl, hhash⟩, hs₁⟩
      exact Prog.assures_pure (hJ.and_left _) ⟨reasonIf_eq_nil.mpr (not_not_intro hhash), hs₁⟩

theorem executorMismatches_serves (himp : Implements h view)
    (hJ : Stable (servedFacts view seededTarget draw) fun s => J (view s))
    (hstands : ∀ v, J v → Stands receipt v) (hs : J (view s)) :
    (ControlPlane.executorMismatches receipt).Assures h (servedFacts view seededTarget draw)
      (ServedOp seededTarget draw) (Returns fun found s => found = [] ∧ J (view s)) 1 s := by
  unfold ControlPlane.executorMismatches
  by_cases hallow : receipt.decision = "ALLOW"
  · obtain ⟨resultHash, hhash, -⟩ := (hstands _ hs).reconstructable.action hallow
    rw [if_pos hallow, hhash]
    refine Prog.assures_bind (m := 0) (serves_read himp
      (o := .hasSyntheticAction receipt.runId resultHash) (R := (· = true)) trivial hJ hs ?_) ?_
    · intro v hv
      obtain ⟨hash, hsome, haction⟩ := (hstands v hv).reconstructable.action hallow
      rw [hhash] at hsome
      rw [← Option.some.inj hsome] at haction
      exact ⟨true, haction, rfl⟩
    · rintro _ s₁ ⟨rfl, hs₁⟩
      exact Prog.assures_pure (hJ.and_left _) ⟨reasonIf_eq_nil.mpr (by decide), hs₁⟩
  · rw [if_neg hallow]
    exact Prog.assures_pure (hJ.and_left _) ⟨rfl, hs⟩

/-- A standing receipt replays, whatever the states are that answer the reads. -/
theorem replay_serves (himp : Implements h view)
    (hJ : Stable (servedFacts view seededTarget draw) fun s => J (view s))
    (hstands : ∀ v, J v → Stands receipt v) (hs : J (view s)) :
    (ControlPlane.replay receipt.receiptId).Assures h (servedFacts view seededTarget draw)
      (ServedOp seededTarget draw)
      (Returns fun manifest s => manifest = ControlPlane.manifestOf receipt [] ∧ J (view s))
      (receipt.registryEvidenceRefs.length + 5) s := by
  unfold ControlPlane.replay
  refine Prog.assures_bind (m := receipt.registryEvidenceRefs.length + 4)
    (serves_read himp (o := .getReceipt receipt.receiptId) (R := (· = some receipt)) trivial hJ hs
      fun v hv => ⟨some receipt, (hstands v hv).stored, rfl⟩) ?_
  rintro _ s₁ ⟨rfl, hs₁⟩
  refine Prog.Assures.le (n := 0 + (receipt.registryEvidenceRefs.length + 4)) ?_ (by omega)
  refine Prog.assures_bind (R := fun found s => found = [] ∧ J (view s)) ?_ ?_
  · unfold ControlPlane.mismatches
    refine Prog.Assures.le (n := 0 + 1 + 1 + receipt.registryEvidenceRefs.length + 1 + 1) ?_
      (by omega)
    refine Prog.assures_bind (serves_read himp (o := .getAgent receipt.agentId)
      (R := fun found => ∃ a, found = some a) trivial hJ hs₁ ?_) ?_
    · intro v hv
      obtain ⟨a, ha⟩ := (hstands v hv).reconstructable.agent
      exact ⟨some a, ha, a, rfl⟩
    rintro _ s₂ ⟨⟨a, rfl⟩, hs₂⟩
    refine Prog.assures_bind (leaseMismatches_serves himp hJ hstands hs₂) ?_
    rintro _ s₃ ⟨rfl, hs₃⟩
    refine Prog.assures_bind (missingEvidence_serves himp hJ hstands (fun _ hid => hid) hs₃) ?_
    rintro _ s₄ ⟨rfl, hs₄⟩
    refine Prog.assures_bind (targetMismatches_serves himp hJ hstands hs₄) ?_
    rintro _ s₅ ⟨rfl, hs₅⟩
    refine Prog.assures_bind (executorMismatches_serves himp hJ hstands hs₅) ?_
    rintro _ s₆ ⟨rfl, hs₆⟩
    refine Prog.assures_pure (hJ.and_left _) ⟨?_, hs₆⟩
    rw [reasonIf_eq_nil.mpr (Option.some_ne_none a)]
    rfl
  · rintro _ s₂ ⟨rfl, hs₂⟩
    exact Prog.assures_pure (hJ.and_left _) ⟨rfl, hs₂⟩

end Replays

/-! ## The execution -/

/-- The receipt of the draw's run is stored, and everything it refers to is there. -/
structure Settled (seededTarget : MaterialTarget) (draw : Draw) (now : DateTime)
    (receipt : ExecutionReceipt) (v : StoreView) : Prop where
  receiptId : receipt.receiptId = draw.receiptId
  runId : receipt.runId = draw.runId
  refers : RefersToMission receipt now seededTarget.targetHash
  one : receipt.registryEvidenceRefs.length ≤ 1
  seeded : Seeded seededTarget v
  stored : v.receipt receipt.receiptId = .ok (some receipt)
  acted : receipt.decision = "ALLOW" → ∃ resultHash,
    truthy receipt.executorResultHash = some resultHash ∧
    v.action receipt.runId resultHash = .ok true

omit [PyRuntime] in
theorem stable_settled (now : DateTime) (receipt : ExecutionReceipt) :
    Stable (servedFacts view seededTarget draw)
      fun s => Settled seededTarget draw now receipt (view s) := by
  intro s s' hkeep hs
  refine ⟨hs.receiptId, hs.runId, hs.refers, hs.one, stable_seeded s s' hkeep hs.seeded, ?_, ?_⟩
  · exact stable_holds (k := .stored receipt) hs.receiptId s s' hkeep hs.stored
  · intro hallow
    obtain ⟨resultHash, hhash, hacted⟩ := hs.acted hallow
    exact ⟨resultHash, hhash,
      stable_holds (k := .acted receipt.runId resultHash) hs.runId s s' hkeep hacted⟩

omit [PyRuntime] in
/-- A settled receipt stands. -/
theorem Settled.stands {now : DateTime} {receipt : ExecutionReceipt} {v : StoreView}
    (hv : Settled seededTarget draw now receipt v) : Stands receipt v where
  stored := hv.stored
  reconstructable := {
    agent := by
      obtain ⟨a, ha, -⟩ := hv.seeded .seededAgent (by simp)
      exact ⟨a, by rw [hv.refers.agentId]; exact ha⟩
    lease := by
      intro id hid
      obtain ⟨l, hl, -⟩ := hv.seeded .seededLease (by simp)
      rw [hv.refers.leaseId] at hid
      rw [← Option.some.inj (truthy_eq_some.mp hid).1]
      exact ⟨l, hl⟩
    evidence := by
      intro id hid
      obtain ⟨e, he, -⟩ := hv.seeded .seededEvidence (by simp)
      rw [hv.refers.evidence id hid]
      exact ⟨e, he⟩
    target := by
      intro id hid
      rw [hv.refers.targetId] at hid
      rw [← Option.some.inj (truthy_eq_some.mp hid).1]
      exact ⟨seededTarget, hv.seeded .seededTarget (by simp), hv.refers.targetHash⟩
    action := hv.acted }

/-- Storing the receipt of the run settles it. -/
theorem receipt_serves (himp : Implements h view) {now : DateTime} {receipt : ExecutionReceipt}
    (hid : receipt.receiptId = draw.receiptId) (hrun : receipt.runId = draw.runId)
    (hrefers : RefersToMission receipt now seededTarget.targetHash)
    (hone : receipt.registryEvidenceRefs.length ≤ 1) {J : StoreView → Prop}
    (hJ : Stable (servedFacts view seededTarget draw) fun s => J (view s))
    (hseeded : ∀ v, J v → Seeded seededTarget v)
    (hacted : ∀ v, J v → receipt.decision = "ALLOW" → ∃ resultHash,
      truthy receipt.executorResultHash = some resultHash ∧
      v.action receipt.runId resultHash = .ok true) (hs : J (view s)) :
    (ControlPlane.receipt receipt).Assures h (servedFacts view seededTarget draw)
      (ServedOp seededTarget draw)
      (Returns fun found s => found = receipt ∧
        Settled seededTarget draw now receipt (view s)) 1 s := by
  refine Prog.assures_bind (m := 0) (serves_call himp (o := .putReceipt receipt)
    (R := fun _ v => Settled seededTarget draw now receipt v) hid trivial hJ hs
    (fun _ => stable_settled now receipt) fun v hv => ⟨(), rfl, ?_⟩) fun _ s₁ hs₁ => ?_
  · refine ⟨hid, hrun, hrefers, hone, fun k hk => ?_, v.putReceipt_self receipt, hacted v hv⟩
    have hop : ServedOp seededTarget draw (.putReceipt receipt) := hid
    exact ServedFact.holds_handle hop ((isSeeded_of_mem k hk).apart draw) (hseeded v hv k hk)
  · exact Prog.assures_pure ((stable_settled now receipt).and_left _) ⟨rfl, hs₁⟩

/-- A report on the seeded target is settled either way. -/
theorem settle_serves (himp : Implements h view) (scenarioId : String) (now : DateTime)
    {intent : ActionIntent} (htargetId : intent.targetId = targetId)
    (htargetName : seededTarget.targetId = targetId)
    (hhash : intent.targetHash = seededTarget.targetHash)
    (hpar : Serializable (.dict intent.parameters)) {report : ControlPlane.GateReport}
    (hreport : FindsSeeded seededTarget report) (hs : Seeded seededTarget (view s)) :
    (ControlPlane.settle draw (identity scenarioId) (lease now).leaseId intent report).Assures h
      (servedFacts view seededTarget draw) (ServedOp seededTarget draw)
      (Returns fun receipt s => Settled seededTarget draw now receipt (view s)) 2 s := by
  unfold ControlPlane.settle
  split
  · -- ALLOW: the action is stored first, under the hash the receipt is to carry
    rename_i target htarget' _
    have hsame : target = seededTarget := Option.some.inj (htarget'.symm.trans hreport.target)
    subst hsame
    obtain ⟨resultHash, hresult⟩ :=
      ControlPlane.syntheticResult_isOk hpar draw.runId (identity scenarioId) target
    let acted : StoreView → Prop := fun v =>
      Seeded target v ∧ v.action draw.runId resultHash = .ok true
    have hstable : Stable (servedFacts view target draw) fun s => acted (view s) :=
      fun s s' hkeep hs => ⟨stable_seeded s s' hkeep hs.1,
        stable_holds (k := .acted draw.runId resultHash) rfl s s' hkeep hs.2⟩
    have hop : ServedOp target draw (.executeSyntheticAction draw.runId
        (ControlPlane.actionPayload (identity scenarioId) intent target)) := rfl
    refine Prog.assures_bind (m := 1) (serves_call himp
      (R := fun found v => found = resultHash ∧ acted v) hop trivial stable_seeded hs
      (fun found s s' hkeep hs => ⟨hs.1, hstable s s' hkeep hs.2⟩) fun v hv => ?_) ?_
    · simp only [StoreView.handle, hresult]
      refine ⟨resultHash, rfl, rfl, fun k hk => ?_, v.putAction_confirms draw.runId resultHash⟩
      have hkept := ServedFact.holds_handle hop ((isSeeded_of_mem k hk).apart draw) (hv k hk)
      simp only [StoreView.handle, hresult] at hkept
      exact hkept
    · rintro _ s₁ ⟨rfl, hs₁⟩
      refine (receipt_serves himp rfl rfl
        ⟨rfl, rfl, hreport.evidence, congrArg some htargetName, rfl⟩ hreport.one hstable
        (fun v hv => hv.1)
        (fun v hv _ => ⟨_, truthy_some (canonicalHash_ne_empty hresult), hv.2⟩) hs₁).mono ?_
      rintro r s ⟨receipt, hr, rfl, hsettled⟩
      exact ⟨_, hr, hsettled⟩
  · refine ((receipt_serves himp rfl rfl
      ⟨rfl, rfl, hreport.evidence, congrArg some htargetId, congrArg some hhash⟩ hreport.one
      stable_seeded (fun v hv => hv) (fun v hv hallow => ?_) hs).mono ?_).le (Nat.le_succ 1)
    · exact absurd hallow (by decide : "BLOCK" ≠ "ALLOW")
    · rintro r s ⟨receipt, hr, rfl, hsettled⟩
      exact ⟨_, hr, hsettled⟩

/-- An execution on the seeded documents ends with a settled receipt. -/
theorem execute_serves (himp : Implements h view) {fuel : Nat} (hfuel : 2 ≤ fuel)
    (scenarioId : String) (now : DateTime) {intent : ActionIntent}
    (hagent : intent.agentId = agent.agentId) (htargetId : intent.targetId = targetId)
    (htargetName : seededTarget.targetId = targetId)
    (hhash : intent.targetHash = seededTarget.targetHash)
    (hpar : Serializable (.dict intent.parameters)) (hs : Seeded seededTarget (view s)) :
    (controlPlane.execute fuel draw (identity scenarioId) (lease now).leaseId intent).Assures h
      (servedFacts view seededTarget draw) (ServedOp seededTarget draw)
      (Returns fun receipt s => Settled seededTarget draw now receipt (view s)) 8 s := by
  unfold ControlPlane.execute
  refine Prog.assures_bind
    (gates_serve himp hfuel controlPlane draw.now scenarioId hagent htargetId hs) ?_
  rintro report s₁ ⟨hreport, hs₁⟩
  exact settle_serves himp scenarioId now htargetId htargetName hhash hpar hreport hs₁

/-! ## The whole request -/

/-- The answer to a valid request: a proposal for another target is refused, any other one is
    executed, its receipt stored, and its replay passed. -/
inductive Answers (seededTarget : MaterialTarget) (draw : Draw) (case scenarioId : String)
    (now : DateTime) (proposal : PlannerProposal) (result : DemoResult) (v : StoreView) : Prop where
  | refused (htarget : proposal.targetId ≠ targetId)
      (hresult : result = rejectedResult case scenarioId (context now scenarioId) proposal
        "planner proposal target does not match trusted target")
  | governed (htarget : proposal.targetId = targetId) (receipt : ExecutionReceipt)
      (hresult : result = governedResult case scenarioId (context now scenarioId) proposal
        ⟨receipt, ControlPlane.manifestOf receipt []⟩)
      (hsettled : Settled seededTarget draw now receipt v)

omit [PyRuntime] in
theorem stable_answers (case scenarioId : String) (now : DateTime) (proposal : PlannerProposal)
    (result : DemoResult) :
    Stable (servedFacts view seededTarget draw)
      fun s => Answers seededTarget draw case scenarioId now proposal result (view s) := by
  intro s s' hkeep hs
  cases hs with
  | refused htarget hresult => exact .refused htarget hresult
  | governed htarget receipt hresult hsettled =>
    exact .governed htarget receipt hresult (stable_settled now receipt s s' hkeep hsettled)

/-- A proposal for another target raises before it is executed. -/
theorem executeProposal_serves_raise (himp : Implements h view) {proposal : PlannerProposal}
    (htarget : proposal.targetId ≠ targetId) (htargetName : seededTarget.targetId = targetId)
    (cp : ControlPlane) (fuel : Nat) (identity : IdentityContext) (leaseId intentId : String)
    (now : DateTime) (hs : Seeded seededTarget (view s)) :
    (executeProposal cp fuel draw identity leaseId proposal targetId intentId now).Assures h
      (servedFacts view seededTarget draw) (ServedOp seededTarget draw)
      (Raises (· = .valueError "planner proposal target does not match trusted target")) 1 s := by
  unfold executeProposal
  refine Prog.assures_bind (serves_read himp (o := .getTarget targetId)
    (R := (· = some seededTarget)) trivial stable_seeded hs
    fun v hv => ⟨_, hv .seededTarget (by simp), rfl⟩) ?_
  rintro _ s₁ ⟨rfl, -⟩
  have hrefused : proposalToIntent proposal intentId identity.agentId seededTarget now =
      .error (.valueError "planner proposal target does not match trusted target") := by
    rw [proposalToIntent, htargetName]
    exact if_pos htarget
  show Prog.Assures h _ _ _ (store.lift (proposalToIntent _ _ _ _ _) >>= _) 0 s₁
  rw [hrefused]
  exact Prog.assures_throw rfl

/-- A proposal for the seeded target is executed, and the replay of its receipt passes. -/
theorem executeProposal_serves (himp : Implements h view) {fuel : Nat} (hfuel : 2 ≤ fuel)
    {proposal : PlannerProposal} (htarget : proposal.targetId = targetId)
    (htargetName : seededTarget.targetId = targetId)
    (hpar : Serializable (.dict proposal.parameters)) (scenarioId intentId : String)
    (now : DateTime) (hs : Seeded seededTarget (view s)) :
    (executeProposal controlPlane fuel draw (identity scenarioId) (lease now).leaseId proposal
      targetId intentId now).Assures h (servedFacts view seededTarget draw)
        (ServedOp seededTarget draw) (Returns fun outcome s =>
          outcome.replay = ControlPlane.manifestOf outcome.receipt [] ∧
          Settled seededTarget draw now outcome.receipt (view s)) 15 s := by
  unfold executeProposal
  refine Prog.assures_bind (serves_read himp (o := .getTarget targetId)
    (R := (· = some seededTarget)) trivial stable_seeded hs
    fun v hv => ⟨_, hv .seededTarget (by simp), rfl⟩) ?_
  rintro _ s₁ ⟨rfl, hs₁⟩
  obtain ⟨intentHash, hintent⟩ := ActionIntent.create_isOk hpar intentId
    (identity scenarioId).agentId proposal.actionType seededTarget.targetId seededTarget.targetHash
    now
  have hbound := htarget.trans htargetName.symm
  show Prog.Assures h _ _ _ (store.lift (proposalToIntent _ _ _ _ _) >>= _) 14 s₁
  rw [proposalToIntent, if_neg (not_not_intro hbound), hintent, Prog.done_ok_bind]
  refine Prog.assures_bind (execute_serves himp hfuel scenarioId now rfl htargetName htargetName rfl
    hpar hs₁) fun receipt s₂ hs₂ => ?_
  -- the receipt stands, whatever the others do between the reads of its replay
  refine Prog.assures_bind (m := 0) ((replay_serves himp (stable_settled now receipt)
    (fun v hv => hv.stands) hs₂).le (Nat.add_le_add_right hs₂.one 5)) ?_
  rintro manifest s₃ ⟨hmanifest, hs₃⟩
  exact Prog.assures_pure ((stable_settled now receipt).and_left _) ⟨hmanifest, hs₃⟩

/-- The guarded part of a request answers it. -/
theorem governProposal_serves (himp : Implements h view) {fuel : Nat} (hfuel : 2 ≤ fuel)
    (ids : FreshIds) (now : DateTime) (hdraw : ids.drawAt now = draw) (case scenarioId : String)
    {proposal : PlannerProposal} (htargetName : seededTarget.targetId = targetId)
    (hpar : Serializable (.dict proposal.parameters)) (hs : Seeded seededTarget (view s)) :
    (governProposal fuel ids case scenarioId (context now scenarioId) proposal).Assures h
      (servedFacts view seededTarget draw) (ServedOp seededTarget draw)
      (Returns fun result s =>
        Answers seededTarget draw case scenarioId now proposal result (view s)) 15 s := by
  subst hdraw
  by_cases htarget : proposal.targetId = targetId
  · refine Prog.assures_tryCatch (Prog.assures_bind (m := 0) (executeProposal_serves himp hfuel htarget
      htargetName hpar scenarioId _ now hs) ?_) _
    rintro ⟨receipt, manifest⟩ s₁ ⟨hmanifest, hs₁⟩
    refine Prog.assures_pure (stable_answers case scenarioId now proposal _)
      (.governed htarget receipt ?_ hs₁)
    rw [← hmanifest]
  · refine Prog.assures_tryCatch_error (m := 14) (Prog.assures_bind_error (executeProposal_serves_raise himp
      htarget htargetName _ _ _ _ _ _ hs) _) ?_
    rintro _ s₁ rfl
    exact Prog.assures_pure (stable_answers case scenarioId now proposal _) (.refused htarget rfl)

end Serving

end CloudDemo

end PoiexGoc
