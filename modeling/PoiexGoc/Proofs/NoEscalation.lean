/-
  No ESCALATION: what compromised issuers can reach.

  Anybody may put provenance records while an execution reads them, one by one.  Suppose the records
  that are put are issued by compromised principals, and no trusted root is compromised.

  1. `walk_backs` — the verifier's loop, whatever it finds at each id: a stored record, or one of
     theirs.  If it finds nothing against the lease, the lease's scope is backed (`Delegation`).

  2. `execute_backs` — so an execution that requires provenance acts, or returns ALLOW, only on a
     scope that its agent or a compromised principal held from a root before anything was put.

  3. This is so in every interleaving (`delegation_never_amplifies`): nobody gains authority that
     neither the agent nor a compromised principal had.
-/
import PoiexGoc.Lib.Delegation
import PoiexGoc.Proofs.GateReports
import PoiexGoc.Proofs.RevocationRaces

namespace PoiexGoc

open Py Effect Delegation

/-- Provenance records as delegations. -/
def provenanceReading : Reading String AuthorityProvenanceRecord String (Finset String) where
  parent := AuthorityProvenanceRecord.parentProvenanceId
  subject := AuthorityProvenanceRecord.subjectId
  issuer := AuthorityProvenanceRecord.issuerId
  scope := AuthorityProvenanceRecord.scope

/-- The store answers the record. -/
def StoreView.Records (v : StoreView) (id : String) (record : AuthorityProvenanceRecord) : Prop :=
  v.provenance id = .ok (some record)

/-- The subject's scope at an id is backed by what `v` holds, or a compromised principal's. -/
def BackedBy (v : StoreView) (now : DateTime) (roots : Finset String) (compromised : String → Prop)
    (id subject : String) (scope : Finset String) : Prop :=
  Backed provenanceReading v.Records (fun record => record.ValidAt now) (fun issuer => issuer ∈ roots)
    compromised id subject scope

/-- The provenance records that are found are those of `v`, or made by the compromised. -/
def FindsProvenance (v : StoreView) (compromised : String → Prop) :
    (o : StoreOp) → Except PyError o.Result → Prop
  | .getAuthorityProvenance id, r =>
    ∀ record, r = .ok (some record) → v.Records id record ∨ compromised record.issuerId
  | _, _ => True

section Verifier

variable {v : StoreView} {compromised : String → Prop} {lease : AuthorityLease} {now : DateTime}
  {roots : Finset String}

theorem recordReasons_eq_nil {first : Bool} {child : Option AuthorityProvenanceRecord}
    {record : AuthorityProvenanceRecord} (hnil : recordReasons lease now first child record = []) :
    record.ValidAt now ∧ (first = true → BacksLease lease record) ∧
      ∀ c, child = some c → DelegatedBy c record := by
  obtain ⟨hfront, hdelegated⟩ := List.append_eq_nil_iff.mp hnil
  obtain ⟨hvalid, hfirst⟩ := List.append_eq_nil_iff.mp hfront
  refine ⟨timeReasons_eq_nil.mp hvalid, fun htrue => ?_, delegationReasons_eq_nil.mp hdelegated⟩
  rw [htrue] at hfirst
  exact leaseBindingReasons_eq_nil.mp hfirst

/-- The loop from one of its states on.  Induction on the fuel; the next record backs what the
    current one delegates. -/
theorem walk_backs (hhonest : ∀ p, compromised p → p ∉ roots) {subject : String}
    {scope : Finset String} (fuel : Nat) (st : WalkState)
    (hst : ∀ record, recordReasons lease now st.first st.child record = [] →
      record.subjectId = subject ∧ scope ⊆ record.scope) :
    (walk (fun id => store.getAuthorityProvenance id) lease now roots fuel st).Meets
      (FindsProvenance v compromised) StoreOp.IsRegistryRead
      fun r => ∀ result, r = .ok result → result.1 = [] →
        st.reasons = [] ∧ BackedBy v now roots compromised st.currentId subject scope := by
  induction fuel generalizing st subject scope with
  | zero =>
    rintro result hr
    cases hr
  | succ fuel ih =>
    rw [walk]
    by_cases hvis : st.currentId ∈ st.visited
    · rw [if_pos hvis]
      rintro result hr hnil
      rw [← Except.ok.inj hr] at hnil
      exact absurd (List.append_eq_nil_iff.mp hnil).2 (List.cons_ne_nil _ _)
    · rw [if_neg hvis]
      refine Prog.meets_bind_ok (store.call_meets _ trivial) fun found hfound => ?_
      cases found with
      | none =>
        rintro result hr hnil
        rw [← Except.ok.inj hr] at hnil
        exact absurd (List.append_eq_nil_iff.mp hnil).2 (List.cons_ne_nil _ _)
      | some record =>
        have hrecord : v.Records st.currentId record ∨ compromised record.issuerId :=
          hfound record rfl
        cases hparent : record.parentProvenanceId with
        | none =>
          simp only [hparent]
          rintro result hr hnil
          rw [← Except.ok.inj hr] at hnil
          obtain ⟨hreasons, htrusted⟩ := List.append_eq_nil_iff.mp hnil
          obtain ⟨hpast, hnone⟩ := List.append_eq_nil_iff.mp hreasons
          obtain ⟨hsubject, hscope⟩ := hst record hnone
          have hroot : record.issuerId ∈ roots := not_not.mp (reasonIf_eq_nil.mp htrusted)
          exact ⟨hpast, Backed.of_root hhonest hrecord (recordReasons_eq_nil hnone).1 hparent hroot
            hsubject hscope⟩
        | some parent =>
          simp only [hparent]
          -- the rest of the loop backs what the record delegates
          refine (@ih record.issuerId record.scope _ fun next hnext => ?_).mono (fun _ ho => ho) ?_
          · exact ((recordReasons_eq_nil hnext).2.2 record rfl).imp_left Eq.symm
          · rintro r hrest result hr hnil
            obtain ⟨hreasons, hbacked⟩ := hrest result hr hnil
            obtain ⟨hpast, hnone⟩ := List.append_eq_nil_iff.mp hreasons
            obtain ⟨hsubject, hscope⟩ := hst record hnone
            exact ⟨hpast, Backed.of_link hrecord (recordReasons_eq_nil hnone).1 hparent hbacked
              hsubject hscope⟩

/-- A verifier that finds nothing against the lease leaves its scope backed. -/
theorem readProvenance_backs (hhonest : ∀ p, compromised p → p ∉ roots) (fuel : Nat) :
    (ControlPlane.readProvenance fuel lease now roots).Meets (FindsProvenance v compromised)
      StoreOp.IsRegistryRead fun r => ∀ result, r = .ok result → result.reasons = [] →
        ∃ id, BackedBy v now roots compromised id lease.agentId lease.scope := by
  unfold ControlPlane.readProvenance verifyAuthorityProvenance
  cases truthy lease.provenanceId with
  | none =>
    rintro result hr hnil
    rw [← Except.ok.inj hr] at hnil
    cases hnil
  | some id =>
    have hfirst : ∀ record, recordReasons lease now true none record = [] →
        record.subjectId = lease.agentId ∧ lease.scope ⊆ record.scope := by
      intro record hrecord
      have hbacks := (recordReasons_eq_nil hrecord).2.1 rfl
      exact ⟨hbacks.1, hbacks.2.2.2⟩
    refine Prog.meets_bind_ok (walk_backs hhonest fuel (WalkState.initial id) hfirst)
      fun walked hwalked => ?_
    rintro result hr hnil
    rw [← Except.ok.inj hr] at hnil
    have hreasons : walked.1 = [] :=
      isEmpty_eraseDups.mp (List.isEmpty_iff.mpr hnil)
    exact ⟨id, (hwalked walked rfl hreasons).2⟩

end Verifier

/-! ## One execution -/

/-- Before anything was put, a record anchored in the roots gave the action to the agent, or to a
    compromised principal. -/
def HeldBefore (v : StoreView) (now : DateTime) (roots : Finset String)
    (compromised : String → Prop) (agentId action : String) : Prop :=
  ∃ id record, Anchored provenanceReading v.Records (fun record => record.ValidAt now)
      (fun issuer => issuer ∈ roots) id record ∧
    (record.subjectId = agentId ∨ compromised record.subjectId) ∧ action ∈ record.scope

/-- The operations of a program that acts only if `held`. -/
def StoreOp.ActsOnlyIf (held : Prop) : StoreOp → Prop
  | .executeSyntheticAction _ _ => held
  | _ => True

theorem StoreOp.IsRegistryRead.actsOnlyIf {o : StoreOp} (ho : o.IsRegistryRead) (held : Prop) :
    o.ActsOnlyIf held := by
  cases o with
  | executeSyntheticAction => exact ho.elim
  | _ => trivial

namespace ControlPlane

section Gates

variable {v : StoreView} {compromised : String → Prop} {cp : ControlPlane} {now : DateTime}
  {identity : IdentityContext} {intent : ActionIntent} {leaseId : String}

theorem leaseGates_backs (hrequired : cp.requireAuthorityProvenance = true)
    (hhonest : ∀ p, compromised p → p ∉ cp.trustedAuthorityRoots) (fuel : Nat)
    (agent : AgentRecord) (found : Option AuthorityLease) :
    (leaseGates cp fuel now identity intent agent found).Meets (FindsProvenance v compromised)
      StoreOp.IsRegistryRead fun r => ∀ reasons, r = .ok reasons → reasons = [] →
        HeldBefore v now cp.trustedAuthorityRoots compromised identity.agentId
          intent.actionType := by
  cases found with
  | none =>
    rintro reasons hr rfl
    cases Except.ok.inj hr
  | some lease =>
    rw [leaseGates, if_pos hrequired]
    refine Prog.meets_bind_ok (readProvenance_backs hhonest fuel) fun provenance hbacks => ?_
    rintro reasons hr rfl
    obtain ⟨hlease, hnil⟩ := List.append_eq_nil_iff.mp (Except.ok.inj hr)
    obtain ⟨hagent, hscope, -⟩ := leaseReasons_eq_nil.mp hlease
    obtain ⟨id, hbacked⟩ := hbacks provenance rfl hnil
    obtain ⟨id', record, hanchored, hsubject, hwithin⟩ := hbacked.holder
    rw [hagent] at hsubject
    exact ⟨id', record, hanchored, hsubject, hwithin hscope⟩

theorem materialGates_backs (hrequired : cp.requireAuthorityProvenance = true)
    (hhonest : ∀ p, compromised p → p ∉ cp.trustedAuthorityRoots) (fuel : Nat)
    (agent : AgentRecord) :
    (materialGates cp fuel now identity leaseId intent agent).Meets (FindsProvenance v compromised)
      StoreOp.IsRegistryRead fun r => ∀ report, r = .ok report → report.reasons = [] →
        HeldBefore v now cp.trustedAuthorityRoots compromised identity.agentId
          intent.actionType := by
  unfold materialGates
  refine Prog.meets_bind_ok ((readEvidence_issues _).meets _) fun evidence _ => ?_
  refine Prog.meets_bind_ok (store.call_meets _ trivial) fun found _ => ?_
  refine Prog.meets_bind_ok (leaseGates_backs hrequired hhonest fuel agent found)
    fun reasons hreasons => ?_
  refine Prog.meets_bind_ok (store.call_meets _ trivial) fun target _ => ?_
  rintro report hr hnil
  rw [← Except.ok.inj hr] at hnil
  exact hreasons reasons rfl (List.append_eq_nil_iff.mp (List.append_eq_nil_iff.mp hnil).1).2

/-- A report with a target and without a reason rests on authority held before. -/
theorem gates_backs (hrequired : cp.requireAuthorityProvenance = true)
    (hhonest : ∀ p, compromised p → p ∉ cp.trustedAuthorityRoots) (fuel : Nat) :
    (gates cp fuel now identity leaseId intent).Meets (FindsProvenance v compromised)
      StoreOp.IsRegistryRead fun r => ∀ report, r = .ok report →
        (∃ target, report.target = some target) → report.reasons = [] →
        HeldBefore v now cp.trustedAuthorityRoots compromised identity.agentId
          intent.actionType := by
  unfold gates
  refine Prog.meets_bind_ok (store.call_meets _ trivial) fun found hfound => ?_
  split
  · rename_i agent _
    exact (materialGates_backs hrequired hhonest fuel agent).mono (fun _ ho => ho)
      fun r hr report hok _ => hr report hok
  · rintro report hr ⟨target, htarget⟩ _
    rw [← Except.ok.inj hr] at htarget
    cases htarget

end Gates

/-- An execution acts, or returns ALLOW, only on authority held before. -/
theorem execute_backs {v : StoreView} {compromised : String → Prop} {cp : ControlPlane}
    (hrequired : cp.requireAuthorityProvenance = true)
    (hhonest : ∀ p, compromised p → p ∉ cp.trustedAuthorityRoots) (fuel : Nat) (draw : Draw)
    (identity : IdentityContext) (leaseId : String) (intent : ActionIntent) :
    (execute cp fuel draw identity leaseId intent).Meets (FindsProvenance v compromised)
      (StoreOp.ActsOnlyIf (HeldBefore v draw.now cp.trustedAuthorityRoots compromised
        identity.agentId intent.actionType))
      fun r => ∀ receipt, r = .ok receipt → receipt.decision = "ALLOW" →
        HeldBefore v draw.now cp.trustedAuthorityRoots compromised identity.agentId
          intent.actionType := by
  unfold execute
  refine Prog.meets_bind_ok ((gates_backs hrequired hhonest fuel).mono
    (fun _ ho => StoreOp.IsRegistryRead.actsOnlyIf ho _) fun _ h => h) fun report hreport => ?_
  unfold settle
  split
  · rename_i target htarget hnil
    have hheld := hreport report rfl ⟨target, htarget⟩ hnil
    refine Prog.meets_bind_ok (store.call_meets _ hheld) fun resultHash _ => ?_
    exact Prog.meets_bind_ok (store.call_meets _ trivial) fun _ _ _ _ _ => hheld
  · refine Prog.meets_bind_ok (store.call_meets _ trivial) fun _ _ => ?_
    rintro receipt hr hallow
    rw [← Except.ok.inj hr] at hallow
    exact absurd hallow (show "BLOCK" ≠ "ALLOW" by decide)

end ControlPlane

/-! ## Every interleaving -/

/-- The provenance records that are put are made by the compromised. -/
def StoreOp.PutsAs [PyRuntime] (compromised : String → Prop) : StoreOp → Prop
  | .putAuthorityProvenance record => compromised record.issuerId
  | o => o.Storable

theorem ControlPlane.ExecuteOp.putsAs [PyRuntime] {compromised : String → Prop} {draw : Draw}
    {o : StoreOp} (ho : ControlPlane.ExecuteOp draw o) : o.PutsAs compromised := by
  cases o with
  | putAuthorityProvenance | putTarget => exact ho.elim
  | _ => trivial

/-- The results of an execution, and of the clients beside it. -/
def BesideExecution {ι : Type} (α : ι → Type) : Option ι → Type
  | none => ExecutionReceipt
  | some i => α i

section Interleavings

variable [PyRuntime] {σ ι : Type} {α : ι → Type}

/-- One execution among other clients, none of them started. -/
def executionAmong (call : ExecuteCall) (clients : (i : ι) → StoreM (α i)) (s : σ) :
    Pool RuntimeStore PyError σ (Option ι) (BesideExecution α) where
  state := s
  threads
    | none => call.program
    | some i => clients i

variable {h : Handler RuntimeStore PyError σ} {view : σ → StoreView} {compromised : String → Prop}

/-- What the store holds beyond `v` is made by the compromised; a put of theirs keeps that. -/
theorem records_keep (himp : Implements h view) {v : StoreView} {o : StoreOp}
    (ho : o.PutsAs compromised) {s : σ}
    (hs : ∀ id record, (view s).Records id record →
      v.Records id record ∨ compromised record.issuerId) (id : String)
    (record : AuthorityProvenanceRecord) (hrecord : (view (h o s).2).Records id record) :
    v.Records id record ∨ compromised record.issuerId := by
  have hstorable : o.Storable := by
    cases o with
    | putAuthorityProvenance => trivial
    | _ => exact ho
  rw [StoreView.Records, (himp.refines o s hstorable).2] at hrecord
  cases o with
  | putAuthorityProvenance new =>
    rcases StoreView.found_after_put hrecord with ⟨-, rfl⟩ | hold
    · exact Or.inr ho
    · exact hs id record hold
  | executeSyntheticAction runId payload =>
    refine hs id record ?_
    simp only [StoreView.handle] at hrecord
    split at hrecord
    · exact hrecord
    · exact hrecord
  | _ => exact hs id record hrecord

/-- Delegation never amplifies authority.  Let provenance be required, and no trusted root be
    compromised.  Then, in every interleaving of one execution with any clients whose provenance
    records are issued by compromised principals, and who may put anything else besides: if the
    execution acts, or returns ALLOW, then a chain of records that were stored and valid before
    gave that action to the agent itself or to a compromised principal. -/
theorem delegation_never_amplifies [DecidableEq ι] (himp : Implements h view) (call : ExecuteCall)
    (hrequired : call.cp.requireAuthorityProvenance = true)
    (hhonest : ∀ p, compromised p → p ∉ call.cp.trustedAuthorityRoots)
    (clients : (i : ι) → StoreM (α i))
    (hclients : ∀ i, (clients i).Issues (StoreOp.PutsAs compromised)) (s : σ)
    (sched : List (Option ι)) :
    ((∃ runId payload, (none, .executeSyntheticAction runId payload) ∈
        Pool.events h sched (executionAmong call clients s)) ∨
      (∃ receipt, (Pool.runSchedule h sched (executionAmong call clients s)).outcome none =
        some (.ok receipt) ∧ receipt.decision = "ALLOW")) →
      HeldBefore (view s) call.draw.now call.cp.trustedAuthorityRoots compromised
        call.identity.agentId call.intent.actionType := by
  have hissues : ∀ client, ((executionAmong call clients s).threads client).Issues
      (StoreOp.PutsAs compromised) := by
    rintro (_ | i)
    · exact (ControlPlane.execute_issues _ _ _ _ _ _).mono fun _ => ControlPlane.ExecuteOp.putsAs
    · exact hclients i
  have hkeep : ∀ e ∈ Pool.events h sched (executionAmong call clients s), ∀ t,
      (∀ id record, (view t).Records id record →
        (view s).Records id record ∨ compromised record.issuerId) →
      ∀ id record, (view (h e.2 t).2).Records id record →
        (view s).Records id record ∨ compromised record.issuerId :=
    fun e he t ht => records_keep himp (Pool.issues_of_mem_events (hissues e.1) he) ht
  have hanswers : ∀ o t, (none, o) ∈ Pool.events h sched (executionAmong call clients s) →
      (∀ id record, (view t).Records id record →
        (view s).Records id record ∨ compromised record.issuerId) →
      FindsProvenance (view s) compromised o (h o t).1 := by
    intro o t _ ht
    cases o with
    | getAuthorityProvenance id =>
      intro record hrecord
      rw [(himp.refines (.getAuthorityProvenance id) t trivial).1] at hrecord
      exact ht id record hrecord
    | _ => trivial
  have hbacks : ((executionAmong call clients s).threads none).Meets _ _ _ :=
    ControlPlane.execute_backs (v := view s) hrequired hhonest call.fuel call.draw call.identity
      call.leaseId call.intent
  rintro (⟨runId, payload, he⟩ | ⟨receipt, hdone, hallow⟩)
  · exact Pool.meets_of_mem_events (fun _ _ => Or.inl) hkeep hanswers hbacks he
  · have hmeets := Pool.meets_runSchedule (fun _ _ => Or.inl) hkeep hanswers hbacks
    rw [Pool.outcome_eq_some.mp hdone] at hmeets
    exact hmeets receipt rfl hallow

end Interleavings

/-- A principal that is no root delegates the demo action to the demo agent while the agent's intent
    is executed, and has its record named by the lease.  Put before the lease is read, the record is
    found, and refused; put after that, it changes nothing, and the action that is allowed was
    delegated before. -/
theorem forged_delegation_is_of_no_use :
    let now := seededCall.draw.now
    let forged : AuthorityProvenanceRecord :=
      { CloudDemo.provenanceChild now with
        provenanceId := "prov-forged", issuerId := "mallory", parentProvenanceId := none }
    let mallory : StoreM (List Reply) := session 1
      [.operation (.putAuthorityProvenance forged),
       .operation (.putLease { CloudDemo.lease now with provenanceId := some "prov-forged" })]
    let pool := executionAmong seededCall (fun _ : Unit => mallory) seededClient
    let early := [some (), some (), none, none, none, none, none, none, none]
    let late := [none, none, none, some (), some (), none, none, none, none, none]
    (none, ("authority_provenance", "prov-forged")) ∈
      (Pool.events demoStore.handle early pool).map (fun e => (e.1, e.2.docName)) ∧
    ((Pool.runSchedule demoStore.handle early pool).outcome none).map
      (fun r => r.map ExecutionReceipt.decision) = some (.ok "BLOCK") ∧
    ((Pool.runSchedule demoStore.handle late pool).outcome none).map
      (fun r => r.map ExecutionReceipt.decision) = some (.ok "ALLOW") ∧
    HeldBefore (demoStore.view seededClient) now {CloudDemo.trustedRoot} (fun p => p = "mallory")
      "agent-maint-01" "issue_synthetic_work_order" := by
  intro now forged mallory pool early late
  have hhonest : ∀ p, p = "mallory" → p ∉ seededCall.cp.trustedAuthorityRoots := by
    rintro p rfl
    decide
  have hmallory : mallory.Issues (StoreOp.PutsAs fun p => p = "mallory") := by
    refine session_issues fun cmd hcmd => ?_
    rcases List.mem_cons.mp hcmd with rfl | hcmd
    · exact store.call_issues _ (show forged.issuerId = "mallory" from rfl)
    · rw [List.mem_singleton.mp hcmd]
      exact store.call_issues _ trivial
  have hallowed : ((Pool.runSchedule demoStore.handle late pool).outcome none).map
      (fun r => r.map ExecutionReceipt.decision) = some (.ok "ALLOW") := by decide +kernel
  refine ⟨by decide +kernel, by decide +kernel, hallowed, ?_⟩
  obtain ⟨r, hdone, hr⟩ := Option.map_eq_some_iff.mp hallowed
  obtain ⟨receipt, rfl, hdecision⟩ := map_eq_ok hr
  exact delegation_never_amplifies (firestoreStore_implements demoStore) seededCall rfl hhonest
    (fun _ : Unit => mallory) (fun _ => hmallory) seededClient late
    (Or.inr ⟨receipt, hdone, hdecision⟩)

end PoiexGoc
